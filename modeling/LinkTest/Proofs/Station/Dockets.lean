import Mathlib.Data.List.Perm.Subperm
import LinkTest.Proofs.Station.Uploads

/-!
# What becomes of each upload

The docket of a run has one of four forms, whatever the schedule: nothing is noted yet, the run has
failed, its upload was refused, or it was sent off once and one worker at a time has to see to it.
Every move without a crash keeps this. No more receipts are announced than completed runs, since
each docket announces its receipt after its record.
-/

namespace LinkTest

/-- Whether an event of this kind has made it known. -/
def Filing.announces (k : EventKind) (f : Filing) : Bool := f.event?.any (·.kind = k)

/-- A receipt is announced once at most, and not before it is there. -/
theorem Progress.countP_le {run : RunId} {r : Record} {noted : List Filing}
    {errand? : Option Errand} (h : Progress run r noted errand?) :
    noted.countP (Filing.announces .reportRouter) + errand?.toList.length ≤ 1 := by
  induction h with
  | announced _ ih => simpa [Filing.announces, Filing.event?, Event.kind] using ih
  | denied _ ih =>
    rw [List.countP_append]
    exact Nat.le_trans (Nat.add_le_add_left (Nat.zero_le 1) _) ih
  | _ => simp [Filing.announces, Filing.event?]

namespace Scene

variable {σ : Type}

/-- The docket of a run, and what is still due to it of each worker. -/
inductive Docket (run : RunId) : List Filing → (Nat → List Errand) → Prop
  | blank {errands : Nat → List Errand} (h : ∀ j, errands j = []) : Docket run [] errands
  | failed (reason : String) {errands : Nat → List Errand} (h : ∀ j, errands j = []) :
    Docket run [.failed run reason] errands
  | refused (r : Record) {errands : Nat → List Errand} (h : ∀ j, errands j = []) :
    Docket run [.completed run r] errands
  | sent (r : Record) (id : Nat) {noted : List Filing} {errand? : Option Errand}
    {errands : Nat → List Errand} (hp : Progress run r noted errand?)
    (h : ∀ j, errands j = if j = id then errand?.toList else []) :
    Docket run (.completed run r :: .sent run r id :: noted) errands

/-- A worker that carries out what was due of it brings the upload to its end. -/
theorem Docket.pay {run : RunId} {es : List Filing} {errands errands' : Nat → List Errand}
    {id : Nat} {d : Errand} {f : Filing} (h : Docket run es errands)
    (hid : errands id = d :: errands' id) (hother : ∀ j, j ≠ id → errands' j = errands j)
    (hf : ∀ r noted, Progress run r noted (some d) → Progress run r (noted ++ [f]) none) :
    es ≠ [] ∧ Docket run (es ++ [f]) errands' := by
  have hne : errands id ≠ [] := by simp [hid]
  cases h with
  | blank h => exact absurd (h id) hne
  | failed reason h => exact absurd (h id) hne
  | refused r h => exact absurd (h id) hne
  | @sent r k noted errand? _ hp h =>
    have hk : id = k := by
      by_contra hk
      exact hne ((h id).trans (if_neg hk))
    subst hk
    have hdue := h id
    rw [if_pos rfl, hid] at hdue
    cases errand? with
    | none => cases hdue
    | some d' =>
      obtain ⟨rfl, hnil⟩ : d = d' ∧ errands' id = [] := by simpa using hdue
      refine ⟨List.cons_ne_nil _ _, .sent r id (hf r noted hp) fun j => ?_⟩
      by_cases hj : j = id
      · rw [if_pos hj, hj, hnil]
        rfl
      · rw [hother j hj, h j, if_neg hj, if_neg hj]

variable [Server σ]

/-- A worker that takes its oldest message brings the upload forward if that is what was due. -/
theorem Docket.take {run : RunId} {es : List Filing} {errands errands' : Nat → List Errand}
    {id : Nat} {w : Worker σ} (h : Docket run es errands) (stamps : Nat → Stamp)
    (hc : (w.step stamps).1.thread ≠ .crashed) (hid : errands id = Errand.ofQueue run w.queue)
    (hid' : errands' id = Errand.ofEffects run (w.step stamps).2 ++
      Errand.ofQueue run (w.step stamps).1.queue)
    (hother : ∀ j, j ≠ id → errands' j = errands j) :
    (es = [] → w.uploadsFor run = []) ∧ Docket run (es ++ w.uploadsFor run) errands' := by
  obtain ⟨hnil, hone⟩ := Errand.forwarded_step run stamps w hc
  have hidle : errands id = [] → w.uploadsFor run = [] ∧ errands' = errands := by
    intro hd
    obtain ⟨hd', hu⟩ := hnil (hid ▸ hd)
    refine ⟨hu, funext fun j => ?_⟩
    by_cases hj : j = id
    · rw [hj, hid', hd', hd]
    · exact hother j hj
  have hsame : errands id = [] →
      (es = [] → w.uploadsFor run = []) ∧ Docket run (es ++ w.uploadsFor run) errands' := by
    intro hd
    obtain ⟨hu, hd'⟩ := hidle hd
    rw [hu, hd', List.append_nil]
    exact ⟨fun _ => rfl, h⟩
  cases h with
  | blank h => exact hsame (h id)
  | failed reason h => exact hsame (h id)
  | refused r h => exact hsame (h id)
  | @sent r k noted errand? _ hp h =>
    by_cases hk : id = k
    · subst hk
      have hdue := h id
      rw [if_pos rfl] at hdue
      cases errand? with
      | none => exact hsame hdue
      | some d =>
        have hqueue : Errand.ofQueue run w.queue = [d] := hid.symm.trans hdue
        have hmem : d ∈ Errand.ofQueue run w.queue := by simp [hqueue]
        obtain ⟨s, rfl⟩ := Errand.exists_of_mem_ofQueue hmem
        cases hp with
        | waiting =>
          obtain ⟨d', hd', hprogress⟩ := hone r hqueue
          refine ⟨nofun, .sent r id hprogress fun j => ?_⟩
          by_cases hj : j = id
          · rw [if_pos hj, hj, hid', hd']
            rfl
          · rw [hother j hj, h j, if_neg hj, if_neg hj]
    · exact hsame ((h id).trans (if_neg hk))

/-! ## Every move -/

/-- What is kept by every move without a crash. -/
structure Balanced (c : Scene σ) (es : List Filing) : Prop where
  numbered : c.Numbered
  bound : ∀ run, c.station.current = some run → ∃ k, c.station.bound = some k
  dockets : ∀ run, Docket run (docketOf run es) (c.errands run)
  ended : ∀ run, docketOf run es ≠ [] →
    run.number < c.station.begun ∧ ∀ id, run ∉ c.unanswered id

omit [Server σ] in
theorem balanced_start (stamps : Nat → Stamp) : (start stamps : Scene σ).Balanced [] where
  numbered := numbered_start stamps
  bound := nofun
  dockets _ := .blank fun _ => rfl
  ended _ h := absurd rfl h

/-- A run begins only if some worker is bound, and then one always is. -/
theorem bound_apply {c : Scene σ}
    (h : ∀ run, c.station.current = some run → ∃ k, c.station.bound = some k) (m : Move σ)
    (run : RunId) (hc : (c.apply m).station.current = some run) :
    ∃ k, (c.apply m).station.bound = some k := by
  have hkept : c.station.current = some run → ∃ k, (c.apply m).station.bound = some k := by
    intro hcur
    obtain ⟨k, hk⟩ := h run hcur
    rw [(frame_apply m c).1, hk]
    cases m.binds? <;> exact ⟨_, rfl⟩
  cases hm : m.isDriving with
  | false => exact hkept ((aside_of_not_driving hm c).current ▸ hc)
  | true =>
    obtain ⟨news, c', log, -, hmade, happly⟩ := c.made (Move.isListening_of_isDriving hm)
    rw [happly] at hc
    cases hmade with
    | aside hn => cases hm.symm.trans hn
    | taken id => exact hkept ((c.take_frame id).2.2.2 ▸ hc)
    | refused => exact hkept hc
    | reached hb =>
      rw [happly]
      exact ⟨_, hb⟩
    | unreached => cases hc
    | acknowledged => exact hkept hc
    | waited => exact hkept hc
    | carried hp hdone =>
      cases hdone with
      | noted => exact hkept hc
      | deposited => exact hkept hc
      | replied hreply =>
        cases hreply with
        | failed => cases hc
        | stray => cases hc
        | _ => exact hkept hc

omit [Server σ] in
/-- A run whose test was not answered yet has an empty docket. -/
theorem Balanced.blank {c : Scene σ} {es : List Filing} (h : c.Balanced es) {run : RunId} {id : Nat}
    (hr : run ∈ c.unanswered id) : docketOf run es = [] ∧ ∀ j, c.errands run j = [] := by
  have hes : docketOf run es = [] := by
    by_contra hne
    exact (h.ended run hne).2 id hr
  have hd := h.dockets run
  rw [hes] at hd
  cases hd with
  | blank hd => exact ⟨hes, hd⟩

/-- A run that was begun and has its answer stays so. -/
theorem ended_apply {c : Scene σ} {run : RunId}
    (h : run.number < c.station.begun ∧ ∀ id, run ∉ c.unanswered id) (m : Move σ) :
    run.number < (c.apply m).station.begun ∧ ∀ id, run ∉ (c.apply m).unanswered id :=
  ⟨Nat.lt_of_lt_of_le h.1 (frame_apply m c).2, not_mem_unanswered_apply h.1 h.2 m⟩

theorem docketOf_called {c : Scene σ} {id : Nat} {w : Worker σ} (hw : c.taker? id = some w)
    (run : RunId) : docketOf run (c.called (.take id)) = w.uploadsFor run := by
  have hu : c.uploaded? (.take id) = w.upload? := by simp only [uploaded?, hw, Option.bind_some]
  rw [called, hu, Worker.uploadsFor]
  cases w.upload? with
  | none => rfl
  | some x =>
    obtain ⟨of, r, outcome⟩ := x
    by_cases hof : of = run <;> simp [docketOf, Filing.run, hof]

/-- What a move in which this is noted makes of the docket of one run. -/
structure Booked (c : Scene σ) (m : Move σ) (run : RunId) (es fs : List Filing) : Prop where
  /-- A docket is opened when the run has its answer. -/
  opened : docketOf run es = [] → docketOf run fs ≠ [] →
    run.number < (c.apply m).station.begun ∧ ∀ id, run ∉ (c.apply m).unanswered id
  docket : Docket run (docketOf run es ++ docketOf run fs) ((c.apply m).errands run)

section

variable {c : Scene σ} {es fs : List Filing} {run : RunId} {m : Move σ}

theorem Booked.of_same (hd : Docket run (docketOf run es) (c.errands run))
    (hf : ∀ f ∈ fs, f.run ≠ run) (he : (c.apply m).errands run = c.errands run) :
    Booked c m run es fs := by
  have hnil : docketOf run fs = [] := docketOf_eq_nil hf
  refine ⟨fun _ hne => absurd hnil hne, ?_⟩
  rw [hnil, List.append_nil, he]
  exact hd

/-- Some run is told what has become of its upload. -/
theorem Booked.of_pay (hd : Docket run (docketOf run es) (c.errands run)) {id : Nat} {d : Errand}
    {of : RunId} {f : Filing} (hof : f.run = of)
    (he : ∀ other j, c.errands other j =
      (if other = of ∧ j = id then [d] else []) ++ (c.apply m).errands other j)
    (hf : ∀ r noted, Progress of r noted (some d) → Progress of r (noted ++ [f]) none) :
    Booked c m run es [f] := by
  by_cases hrun : run = of
  · subst hrun
    have hid : c.errands run id = d :: (c.apply m).errands run id := by simp [he run]
    obtain ⟨hne, hpay⟩ := hd.pay hid (fun j hj => by simp [he run j, hj]) hf
    refine ⟨fun hes => absurd hes hne, ?_⟩
    rw [docketOf_eq_self (by simpa using hof : ∀ x ∈ [f], x.run = run)]
    exact hpay
  · refine .of_same hd (by simpa [hof] using Ne.symm hrun) (funext fun j => ?_)
    rw [he run j, if_neg fun h => hrun h.1, List.nil_append]

/-- A run is told how its test has ended. -/
theorem Balanced.booked_of_answer (h : c.Balanced es) {id : Nat} {of : RunId} {r : Record}
    {rest : List Effect} (hp : c.pending id = .reply (.run of) (.finished r) :: rest)
    (hf : ∀ f ∈ fs, f.run = of)
    (he : ∀ other, other ≠ of → (c.apply (.carry id)).errands other = c.errands other)
    (hd : (∀ j, c.errands of j = []) → Docket of fs ((c.apply (.carry id)).errands of)) :
    Booked c (.carry id) run es fs := by
  by_cases hof : of = run
  · subst hof
    obtain ⟨hes, hnone⟩ := h.blank (mem_unanswered hp)
    have hbegun : of.number < c.station.begun := h.numbered.begun id of (mem_unanswered hp)
    refine ⟨fun _ _ => ⟨Nat.lt_of_lt_of_le hbegun (frame_apply _ c).2,
      h.numbered.answered hp⟩, ?_⟩
    rw [hes, List.nil_append, docketOf_eq_self hf]
    exact hd hnone
  · exact .of_same (h.dockets run) (fun f hm => by rwa [hf f hm]) (he run (Ne.symm hof))

theorem Balanced.booked_take (h : c.Balanced es) {id : Nat} (hc : (c.apply (.take id)).CrashFree) :
    Booked c (.take id) run es (c.called (.take id)) := by
  rcases c.take_cases id with ⟨hnone, ht⟩ | ⟨w, stamps, stamped, hw, ht⟩
  · have hcalled : c.called (.take id) = [] := by simp only [called, uploaded?, hnone]; rfl
    exact .of_same (h.dockets run) (by simp [hcalled]) (by rw [apply, ht])
  · obtain ⟨hw', hp, -⟩ := taker?_eq_some_iff.1 hw
    have hid : id < c.station.workers.length := Station.mem_workers_of_worker? hw'
    have hcr : (w.step stamps).1.thread ≠ .crashed := by
      rw [apply, ht] at hc
      exact hc _ (List.mem_iff_getElem?.2 ⟨id, by simp [hid]⟩)
    have hbefore : c.errands run id = Errand.ofQueue run w.queue := by
      rw [errands, hp, Station.queueOf_eq hw']
      rfl
    have hafter : (c.apply (.take id)).errands run id = Errand.ofEffects run (w.step stamps).2 ++
        Errand.ofQueue run (w.step stamps).1.queue := by
      simp [apply, ht, errands, Station.queueOf_set_self _ hid]
    obtain ⟨hblank, hnext⟩ := (h.dockets run).take stamps hcr hbefore hafter fun j hj => by
      simp [apply, ht, errands, Station.queueOf_set_ne _ hj, hj]
    rw [← docketOf_called hw] at hblank hnext
    exact ⟨fun hes hne => absurd (hblank hes) hne, hnext⟩

omit [Server σ] in
/-- The docket of a run that has just completed its test. -/
theorem Dispatched.docket {r : Record} {sent : List Filing} (h : Dispatched c run r sent)
    {errands : Nat → List Errand} (he : ∀ j, errands j = sent.filterMap (Errand.ofSent run j)) :
    Docket run (.completed run r :: sent) errands := by
  cases h with
  | refused => exact .refused r he
  | @sent id =>
    refine .sent r id .waiting fun j => ?_
    rw [he]
    by_cases hj : j = id
    · simp [Errand.ofSent, hj]
    · simp [Errand.ofSent, hj, Ne.symm hj]

omit [Server σ] in
/-- Nothing is sent off for any other run. -/
theorem Dispatched.run_eq {r : Record} {sent : List Filing} (h : Dispatched c run r sent) :
    ∀ f ∈ sent, f.run = run := by
  cases h <;> simp [Filing.run]

omit [Server σ] in
theorem Dispatched.ofSent_of_ne {r : Record} {sent : List Filing} (h : Dispatched c run r sent)
    {other : RunId} (hne : other ≠ run) (j : Nat) :
    sent.filterMap (Errand.ofSent other j) = [] := by
  cases h <;> simp [Errand.ofSent, Ne.symm hne]

theorem Balanced.booked (h : c.Balanced es) (hc : (c.apply m).CrashFree) (run : RunId) :
    Booked c m run es (c.filings m) := by
  have hfiled := filed_apply h.bound m
  generalize c.filings m = fs at hfiled ⊢
  cases hfiled with
  | quiet hn he => exact .of_same (h.dockets run) (by simp) (funext (he run))
  | taken id => exact h.booked_take hc
  | completed hp hr hn hl hcur hs he =>
    refine h.booked_of_answer hp ?_ (fun other hne => funext fun j => ?_) fun hnone => ?_
    · exact List.forall_mem_cons.2 ⟨rfl, hs.run_eq⟩
    · rw [he, hs.ofSent_of_ne hne, List.append_nil]
    · exact hs.docket fun j => by rw [he, hnone, List.nil_append]
  | @failed id of r rest hp hr hn he =>
    refine h.booked_of_answer hp (by simp [Filing.run]) (fun other _ => funext (he other)) ?_
    exact fun hnone => .failed r.reason fun j => (he of j).trans (hnone j)
  | announced hp hcalm he => exact .of_pay (h.dockets run) rfl he fun _ _ => .announced
  | denied hp hcalm he => exact .of_pay (h.dockets run) rfl he fun _ _ => .denied

end

theorem Balanced.apply {c : Scene σ} {es : List Filing} (h : c.Balanced es) {m : Move σ}
    (hc : (c.apply m).CrashFree) : (c.apply m).Balanced (es ++ c.filings m) where
  numbered := h.numbered.apply m
  bound := bound_apply h.bound m
  dockets run := by
    rw [docketOf_append]
    exact (h.booked hc run).docket
  ended run hne := by
    rw [docketOf_append] at hne
    by_cases hes : docketOf run es = []
    · exact (h.booked hc run).opened hes (by simpa [hes] using hne)
    · exact ended_apply (h.ended run hes) m

theorem balanced_run (stamps : Nat → Stamp) {moves : List (Move σ)}
    (h : ((start stamps).run moves).CrashFree) :
    ((start stamps).run moves).Balanced ((start stamps : Scene σ).filed moves) := by
  induction moves using List.reverseRecOn with
  | nil => exact balanced_start stamps
  | append_singleton moves m ih =>
    rw [run_append, run_cons, run_nil] at h
    rw [run_append, run_cons, run_nil, filed_concat]
    exact (ih (crashFree_of_apply h)).apply h

/-! ## Counting -/

/-- What is counted run by run is counted altogether. -/
theorem countP_le_of_docketOf {es : List Filing} {p q : Filing → Bool}
    (h : ∀ run, (docketOf run es).countP p ≤ (docketOf run es).countP q) :
    es.countP p ≤ es.countP q := by
  have hcount : ∀ (p : Filing → Bool) (run : RunId),
      ((es.filter p).map Filing.run).count run = (docketOf run es).countP p := by
    intro p run
    rw [List.count_eq_countP, List.countP_map, docketOf, List.countP_filter, List.countP_filter]
    refine List.countP_congr fun f _ => ?_
    simp [and_comm]
  have hsub : ((es.filter p).map Filing.run).Subperm ((es.filter q).map Filing.run) :=
    List.subperm_ext_iff.2 fun run _ => by
      rw [hcount, hcount]
      exact h run
  simpa [List.countP_eq_length_filter] using hsub.length_le

omit [Server σ] in
theorem Docket.countP_le {run : RunId} {es : List Filing} {errands : Nat → List Errand}
    (h : Docket run es errands) :
    es.countP (Filing.announces .reportRouter) ≤ es.countP (Filing.announces .testCompleted) := by
  cases h with
  | sent r id hp h =>
    have hle := hp.countP_le
    simp [Filing.announces, Filing.event?, Event.kind]
    omega
  | _ => simp [Filing.announces, Filing.event?, Event.kind]

/-- What the filings of a move announce is what it publishes beside the phases. -/
theorem Filed.events {c : Scene σ} {m : Move σ} {fs : List Filing} (h : Filed c m fs) :
    fs.filterMap Filing.event? = (c.published m).filter (·.kind ≠ .phaseChanged) := by
  cases h with
  | quiet hn =>
    symm
    simpa using hn
  | taken id hcalm =>
    rw [hcalm.published, called, List.filterMap_map]
    exact List.filterMap_eq_nil_iff.2 fun _ _ => rfl
  | completed hp hr hn hl hcur hs =>
    rw [hn]
    cases hs <;> rfl
  | failed hp hr hn =>
    rw [hn]
    rfl
  | announced hp hcalm =>
    rw [hcalm.published]
    rfl
  | denied hp hcalm =>
    rw [hcalm.published]
    rfl

theorem events_filed {c : Scene σ}
    (h : ∀ run, c.station.current = some run → ∃ k, c.station.bound = some k)
    (moves : List (Move σ)) : (c.filed moves).filterMap Filing.event? =
      ((c.chronicle moves).filterMap Entry.event?).filter (·.kind ≠ .phaseChanged) := by
  induction moves generalizing c with
  | nil => rfl
  | cons m rest ih =>
    rw [filed, chronicle, List.filterMap_append, List.filterMap_append, List.filter_append,
      events_entries, (filed_apply h m).events, ih (bound_apply h m)]

omit [Server σ] in
theorem countP_published {es : List Filing} {news : List Event}
    (h : es.filterMap Filing.event? = news.filter (·.kind ≠ .phaseChanged)) {k : EventKind}
    (hk : k ≠ .phaseChanged) :
    news.countP (·.kind = k) = es.countP (Filing.announces k) := by
  calc news.countP (·.kind = k)
      = (news.filter (·.kind ≠ .phaseChanged)).countP (·.kind = k) := by
        rw [List.countP_filter]
        refine List.countP_congr fun e _ => ?_
        by_cases he : e.kind = k <;> simp [he, hk]
    _ = (es.filterMap Filing.event?).countP (·.kind = k) := by rw [h]
    _ = es.countP (Filing.announces k) := by
        rw [List.countP_filterMap]
        refine List.countP_congr fun f _ => ?_
        cases hf : f.event? <;> simp [Filing.announces, hf]

/-! ## Whole schedules -/

/-- What the ledger of a schedule says, beside the events that were published. -/
structure Accounted (c : Scene σ) (es : List Filing) (news : List Event) : Prop where
  /-- Whatever move comes next, it is noted like this. -/
  next : ∀ m, Filed c m (c.filings m)
  docket : ∀ run, Docket run (docketOf run es) (c.errands run)
  /-- The ledger misses no event but the changes of the phase. -/
  events : es.filterMap Filing.event? = news.filter (·.kind ≠ .phaseChanged)
  receipts : news.countP (·.kind = .reportRouter) ≤ news.countP (·.kind = .testCompleted)

/-- Every schedule without a crash accounts for the record of every completed run: it is sent off
once, or refused because the worker that is bound has ended; it is the subject of one call at most;
and what the server has answered is announced once, after the record. -/
theorem accounted_run (stamps : Nat → Stamp) {moves : List (Move σ)} {c : Scene σ}
    (hc : (start stamps).run moves = c) (h : c.CrashFree) :
    c.Accounted ((start stamps).filed moves)
      (((start stamps).chronicle moves).filterMap Entry.event?) := by
  subst hc
  have hb := balanced_run stamps h
  have hevents := events_filed (balanced_start stamps).bound moves
  refine ⟨fun m => filed_apply hb.bound m, hb.dockets, hevents, ?_⟩
  rw [countP_published hevents (by decide), countP_published hevents (by decide)]
  exact countP_le_of_docketOf fun run => (hb.dockets run).countP_le

theorem accounted_of_rehearsed : rehearsed.CrashFree ∧ rehearsed.Accounted
    ((start fun _ => default).filed (.subscribe EventKind.all :: rehearsal))
    (((start fun _ => default).chronicle (.subscribe EventKind.all :: rehearsal)).filterMap
      Entry.event?) := by
  have h : rehearsed.CrashFree := by decide +kernel
  exact ⟨h, accounted_run (fun _ => default) rfl h⟩

end Scene
end LinkTest
