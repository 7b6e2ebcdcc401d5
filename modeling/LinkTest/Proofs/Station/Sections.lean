import LinkTest.Proofs.Station.Publishing
import LinkTest.Station.Sections

/-!
# Operations are made of their sections

If nobody acts in between, the sections of a visit come to the whole operation, with its answer, and
those of a duty to the effect that is carried out. What one section does is listed once for visits
and once for duties; like everything else, it does not depend on who listens.
-/

namespace LinkTest.Station

variable {σ : Type}

/-! ## Whole operations -/

/-- What a visit comes to if nobody acts in between. -/
inductive Visit.Leads : Visit → Station σ → Except Failure Bool × Station σ → Prop
  | last {v : Visit} {s s' : Station σ} {answer : Except Failure Bool}
    (h : v.step s = (.inr answer, s')) : Leads v s (answer, s')
  | next {v v' : Visit} {s s' : Station σ} {e : Except Failure Bool × Station σ}
    (h : v.step s = (.inl v', s')) (hl : Leads v' s' e) : Leads v s e

/-- What a duty comes to if nobody acts in between. -/
inductive Duty.Leads : Duty → Station σ → Station σ → Prop
  | last {d : Duty} {s s' : Station σ} (h : d.step s = (none, s')) : Leads d s s'
  | next {d d' : Duty} {s s' s'' : Station σ} (h : d.step s = (some d', s'))
    (hl : Leads d' s' s'') : Leads d s s''

theorem Visit.leads_withdraw (f : Failure) (s : Station σ) :
    Visit.Leads (.withdraw f) { s with current := none } (.error f, (s.giveUp caller).2) := by
  unfold giveUp
  rcases h : abort caller { s with current := none } with ⟨f' | source, s'⟩
  · have hstep : Visit.step (.withdraw f) { s with current := none } = (.inr (.error f), s') := by
      simp only [Visit.step, h]
    exact .last hstep
  · have hstep : Visit.step (.withdraw f) { s with current := none } =
        (.inl (.tell source .idle (.error f)), s') := by simp only [Visit.step, h]
    exact .next hstep (.last rfl)

/-- The two messages are sent, or the run is lost. -/
theorem Visit.leads_login (id : Nat) (run : RunId) (s : Station σ) :
    Visit.Leads (.login id run) s (match s.sendRun id run with
      | (.ok _, s) => (.ok true, s)
      | (.error f, s) =>
        (.error f, ((s.note (.main .error
          ("Run " ++ run.text ++ " could not reach the worker: " ++ f.message))).giveUp caller).2)) := by
  unfold sendRun
  rcases h : s.send caller id (.login none) with ⟨f | u, t⟩
  · have hstep : Visit.step (.login id run) s = (.inl (.lose run f), t) := by
      simp only [Visit.step, h]
    exact .next hstep (.next rfl (Visit.leads_withdraw f _))
  · have hstep : Visit.step (.login id run) s = (.inl (.request id run), t) := by
      simp only [Visit.step, h]
    refine .next hstep ?_
    dsimp only
    rcases h' : t.send caller id (.requestTest (.run run)) with ⟨f | u, t'⟩
    · have hstep : Visit.step (.request id run) t = (.inl (.lose run f), t') := by
        simp only [Visit.step, h']
      exact .next hstep (.next rfl (Visit.leads_withdraw f _))
    · have hstep : Visit.step (.request id run) t = (.inr (.ok true), t') := by
        simp only [Visit.step, h']
      exact .last hstep

/-- Starting a run is its sections, one after the other. -/
theorem Visit.leads_start (s : Station σ) : Visit.Leads .start s s.startTest := by
  unfold startTest
  cases hb : s.bound with
  | none =>
    have hstep : Visit.step .start s = (.inr (.error .notBound), s) := by
      simp only [Visit.step, hb]
    exact .last hstep
  | some id =>
    have hstep : Visit.step .start s = (.inl (.claim id), s) := by simp only [Visit.step, hb]
    refine .next hstep ?_
    rcases hbegin : s.beginRun with ⟨_ | _, s'⟩
    · have hclaim : Visit.step (.claim id) s = (.inl .excuse, s') := by
        simp only [Visit.step, hbegin]
      exact .next hclaim (.last rfl)
    · have hclaim : Visit.step (.claim id) s = (.inl (.enlist id), s') := by
        simp only [Visit.step, hbegin]
      exact .next hclaim (.next rfl (.next rfl (Visit.leads_login id _ _)))

/-- So is acknowledging a record. -/
theorem Visit.leads_acknowledge (s : Station σ) :
    Visit.Leads .acknowledge s (.ok s.acknowledgeResults.1, s.acknowledgeResults.2) := by
  unfold acknowledgeResults
  rcases h : s.acknowledge caller with ⟨f | source, s'⟩
  · have hstep : Visit.step .acknowledge s = (.inr (.ok false),
        s'.note (.main .debug ("Orchestrator: acknowledge ignored: " ++ f.message))) := by
      simp only [Visit.step, h]
    exact .last hstep
  · have hstep : Visit.step .acknowledge s = (.inl (.tell .completed .idle (.ok true)), s') := by
      simp only [Visit.step, h]
    exact .next hstep (.last rfl)

theorem Duty.leads_enter (run : RunId) (s : Station σ) :
    Duty.Leads (.enter run) s (s.enterTesting run) := by
  unfold enterTesting
  dsimp only
  rcases h : s.transition Worker.threadName .testing with ⟨f | source, s'⟩
  · have hstep : Duty.step (.enter run) s =
        (none, s'.note (runNote .warn run (": " ++ f.message))) := by simp only [Duty.step, h]
    exact .last hstep
  · have hstep : Duty.step (.enter run) s = (some (.tell source .testing none), s') := by
      simp only [Duty.step, h]
    exact .next hstep (.last rfl)

theorem Duty.leads_address (run : RunId) (r : Record) (s : Station σ) :
    Duty.Leads (.address run r) s (s.submit run r) := by
  unfold submit
  cases hb : s.bound with
  | none =>
    have hstep : Duty.step (.address run r) s = (none, s) := by
      simp only [Duty.step, hb, Option.map_none]
    exact .last hstep
  | some id =>
    have hstep : Duty.step (.address run r) s = (some (.upload id run r), s) := by
      simp only [Duty.step, hb, Option.map_some]
    refine .next hstep ?_
    dsimp only
    rcases h : s.send Worker.threadName id (.report r (some (.run run))) with ⟨f | u, t⟩
    · have hstep : Duty.step (.upload id run r) s =
          (none, t.note (runNote .warn run (": results not uploaded: " ++ f.message))) := by
        simp only [Duty.step, h]
      exact .last hstep
    · have hstep : Duty.step (.upload id run r) s = (none, t) := by simp only [Duty.step, h]
      exact .last hstep

theorem Duty.leads_complete {r : Record} (hr : r.isValid = true) (run : RunId) (s : Station σ) :
    Duty.Leads (.complete run r) s (s.concludeRun run r) := by
  simp only [concludeRun, hr, if_true]
  rcases h : s.complete Worker.threadName r with ⟨f | source, s'⟩
  · have hstep : Duty.step (.complete run r) s =
        (none, s'.note (runNote .warn run (": could not complete: " ++ f.message))) := by
      simp only [Duty.step, h]
    exact .last hstep
  · have hstep : Duty.step (.complete run r) s = (some (.unveil run r),
        s'.note (runNote .info run (" completed (" ++ r.stamp.id.short ++ ")"))) := by
      simp only [Duty.step, h]
    exact .next hstep (.next rfl (.next rfl (Duty.leads_address run r _)))

theorem Duty.leads_drop {r : Record} (hr : r.isValid = false) (run : RunId) (s : Station σ) :
    Duty.Leads (.drop run r.reason) s (s.concludeRun run r) := by
  simp only [concludeRun, hr, Bool.false_eq_true, if_false]
  refine .next rfl ?_
  unfold giveUp
  generalize { s.note (runNote .warn run (" failed: " ++ r.reason)) with current := none } = t
  rcases h : t.abort Worker.threadName with ⟨f | source, t'⟩
  · have hstep : Duty.step (.abort run r.reason) t =
        (some (.fail r.reason), t'.note (runNote .warn run (": " ++ f.message))) := by
      simp only [Duty.step, h]
    exact .next hstep (.last rfl)
  · have hstep : Duty.step (.abort run r.reason) t =
        (some (.tell source .idle (some r.reason)), t') := by simp only [Duty.step, h]
    exact .next hstep (.next rfl (.last rfl))

/-- Carrying out an effect is its sections, one after the other. -/
theorem Duty.leads_carry (e : Effect) (s : Station σ) :
    Duty.Leads (.carry e) s (s.perform e) := by
  cases e with
  | note n => exact .last rfl
  | reply t reply =>
    cases t with
    | target id kind => cases reply <;> exact .last rfl
    | run run =>
      cases reply with
      | reported receipt => exact .last rfl
      | reportFailed reason => exact .last rfl
      | started =>
        by_cases hc : s.current = some run
        · have hstep : Duty.step (.carry (.reply (.run run) .started)) s =
              (some (.enter run), s) := by simp only [Duty.step, hc, if_true]
          simp only [perform, onReply, hc, if_true]
          exact .next hstep (Duty.leads_enter run s)
        · have hstep : Duty.step (.carry (.reply (.run run) .started)) s =
              (none, s.note (staleNote run)) := by simp only [Duty.step, hc, if_false]
          simp only [perform, onReply, hc, if_false]
          exact .last hstep
      | finished r =>
        by_cases hc : s.current = some run
        · have hstep : Duty.step (.carry (.reply (.run run) (.finished r))) s =
              (some (if r.isValid then .complete run r else .drop run r.reason), s) := by
            simp only [Duty.step, hc, if_true]
          simp only [perform, onReply, hc, if_true]
          refine .next hstep ?_
          cases hr : r.isValid with
          | true => exact Duty.leads_complete hr run s
          | false => exact Duty.leads_drop hr run s
        · have hstep : Duty.step (.carry (.reply (.run run) (.finished r))) s =
              (none, s.note (staleNote run)) := by simp only [Duty.step, hc, if_false]
          simp only [perform, onReply, hc, if_false]
          exact .last hstep

/-! ## What one section does -/

/-- All that can come of one section of a visit: what it publishes, what is left of it, and the
station up to its bus and its log. -/
inductive Visit.Made (s : Station σ) :
    Visit → List Event → Visit ⊕ Except Failure Bool → Station σ → Prop
  | unbound (hb : s.bound = none) : Made s .start [] (.inr (.error .notBound)) s
  | read {id : Nat} (hb : s.bound = some id) : Made s .start [] (.inl (.claim id)) s
  | claimed (id : Nat) (hp : s.lifecycle.phase = .idle) :
    Made s (.claim id) [] (.inl (.enlist id))
      { s with lifecycle := s.lifecycle.enter .preparing }
  | busy (id : Nat) (hp : s.lifecycle.phase ≠ .idle) : Made s (.claim id) [] (.inl .excuse) s
  | excused : Made s .excuse [] (.inr (.ok false)) s
  | enlisted (id : Nat) : Made s (.enlist id) [] (.inl (.herald id ⟨s.begun⟩))
      { s with current := some ⟨s.begun⟩, begun := s.begun + 1 }
  | heralded (id : Nat) (run : RunId) :
    Made s (.herald id run) [.phaseChanged .idle .preparing] (.inl (.login id run)) s
  | loggedIn {id : Nat} (run : RunId) {w : Worker σ} (hw : s.worker? id = some w)
    (ho : w.isOpen = true) : Made s (.login id run) [] (.inl (.request id run))
      { s with workers := s.workers.set id { w with queue := w.queue ++ [.login none] } }
  | requested {id : Nat} (run : RunId) {w : Worker σ} (hw : s.worker? id = some w)
    (ho : w.isOpen = true) : Made s (.request id run) [] (.inr (.ok true))
      { s with
        workers := s.workers.set id { w with queue := w.queue ++ [.requestTest (.run run)] } }
  | missed {v : Visit} (id : Nat) (run : RunId) (hv : v = .login id run ∨ v = .request id run) :
    Made s v [] (.inl (.lose run .workerStopped)) s
  | lost (run : RunId) (f : Failure) :
    Made s (.lose run f) [] (.inl (.withdraw f)) { s with current := none }
  | withdrawn (f : Failure) (hp : s.lifecycle.phase.isUnderWay = true) :
    Made s (.withdraw f) [] (.inl (.tell s.lifecycle.phase .idle (.error f)))
      { s with lifecycle := s.lifecycle.enter .idle }
  | kept (f : Failure) (hp : s.lifecycle.phase.isUnderWay = false) :
    Made s (.withdraw f) [] (.inr (.error f)) s
  | acknowledged (hp : s.lifecycle.phase = .completed) :
    Made s .acknowledge [] (.inl (.tell .completed .idle (.ok true)))
      { s with lifecycle := s.lifecycle.enter .idle }
  | refused (hp : s.lifecycle.phase ≠ .completed) : Made s .acknowledge [] (.inr (.ok false)) s
  | told (source target : Phase) (answer : Except Failure Bool) :
    Made s (.tell source target answer) [.phaseChanged source target] (.inr answer) s

/-- All that can come of one section of a duty. -/
inductive Duty.Made (s : Station σ) : Duty → List Event → Option Duty → Station σ → Prop
  | noted (n : Note) : Made s (.carry (.note n)) [] none s
  | deposited (id : Nat) (kind : TargetKind) (reply : Reply) (targets : List Target) :
    Made s (.carry (.reply (.target id kind) reply)) [] none { s with targets := targets }
  | uploaded (run : RunId) (receipt : Receipt) :
    Made s (.carry (.reply (.run run) (.reported receipt))) [.reportRouter receipt] none s
  | unreported (run : RunId) (reason : String) :
    Made s (.carry (.reply (.run run) (.reportFailed reason))) [] none s
  | stale {run : RunId} {reply : Reply} (hr : reply = .started ∨ ∃ r, reply = .finished r)
    (hc : s.current ≠ some run) : Made s (.carry (.reply (.run run) reply)) [] none s
  | begun {run : RunId} (hc : s.current = some run) :
    Made s (.carry (.reply (.run run) .started)) [] (some (.enter run)) s
  | tested {run : RunId} {r : Record} (hc : s.current = some run) (hr : r.isValid = true) :
    Made s (.carry (.reply (.run run) (.finished r))) [] (some (.complete run r)) s
  | failed {run : RunId} {r : Record} (hc : s.current = some run) (hr : r.isValid = false) :
    Made s (.carry (.reply (.run run) (.finished r))) [] (some (.drop run r.reason)) s
  | entered (run : RunId) (hp : s.lifecycle.phase = .preparing) :
    Made s (.enter run) [] (some (.tell .preparing .testing none))
      { s with lifecycle := s.lifecycle.enter .testing }
  | barred (run : RunId) (hp : s.lifecycle.phase ≠ .preparing) : Made s (.enter run) [] none s
  | completed (run : RunId) {r : Record} (hp : s.lifecycle.phase = .testing)
    (hr : r.isValid = true) : Made s (.complete run r) [] (some (.unveil run r))
      { s with lifecycle := { s.lifecycle.enter .completed with latest := some r } }
  | withheld (run : RunId) (r : Record) (h : ¬(s.lifecycle.phase = .testing ∧ r.isValid = true)) :
    Made s (.complete run r) [] none s
  | unveiled (run : RunId) (r : Record) :
    Made s (.unveil run r) [.phaseChanged .testing .completed] (some (.present run r)) s
  | presented (run : RunId) (r : Record) :
    Made s (.present run r) [.testCompleted r] (some (.address run r)) s
  | addressed (run : RunId) (r : Record) :
    Made s (.address run r) [] (s.bound.map fun id => .upload id run r) s
  | submitted {id : Nat} (run : RunId) (r : Record) {w : Worker σ} (hw : s.worker? id = some w)
    (ho : w.isOpen = true) : Made s (.upload id run r) [] none
      { s with
        workers := s.workers.set id { w with queue := w.queue ++ [.report r (some (.run run))] } }
  | missed (id : Nat) (run : RunId) (r : Record) : Made s (.upload id run r) [] none s
  | dropped (run : RunId) (reason : String) :
    Made s (.drop run reason) [] (some (.abort run reason)) { s with current := none }
  | aborted (run : RunId) (reason : String) (hp : s.lifecycle.phase.isUnderWay = true) :
    Made s (.abort run reason) [] (some (.tell s.lifecycle.phase .idle (some reason)))
      { s with lifecycle := s.lifecycle.enter .idle }
  | kept (run : RunId) (reason : String) (hp : s.lifecycle.phase.isUnderWay = false) :
    Made s (.abort run reason) [] (some (.fail reason)) s
  | told (source target : Phase) (failure : Option String) :
    Made s (.tell source target failure) [.phaseChanged source target] (failure.map .fail) s
  | mourned (reason : String) : Made s (.fail reason) [.testFailed reason] none s

theorem Visit.made_send {v : Visit} {id : Nat} {run : RunId} {m : Message}
    {next : Visit ⊕ Except Failure Bool} (hv : v = .login id run ∨ v = .request id run)
    (hstep : ∀ s : Station σ, v.step s = match s.send caller id m with
      | (.ok _, s) => (next, s)
      | (.error f, s) => (.inl (.lose run f), s)) (s : Station σ)
    (hmade : ∀ w, s.worker? id = some w → w.isOpen = true → Visit.Made s v [] next
      { s with workers := s.workers.set id { w with queue := w.queue ++ [m] } }) :
    ∃ news next t, Visit.Made s v news next t ∧
      ∀ b log, ∃ log', v.step (s.wired b log) = (next, t.wired (b.publishAll news) log') := by
  rcases s.open_or_closed id with ⟨w, hw, ho⟩ | hc
  · refine ⟨[], next, _, hmade w hw ho, fun b log => ?_⟩
    obtain ⟨log', h⟩ := send_of_open caller m (s := s.wired b log) hw ho
    exact ⟨log', by rw [hstep, h]; rfl⟩
  · refine ⟨[], _, s, .missed id run hv, fun b log => ?_⟩
    obtain ⟨log', h⟩ := send_of_closed caller m (s := s.wired b log) hc
    exact ⟨log', by rw [hstep, h]; rfl⟩

theorem Visit.made (v : Visit) (s : Station σ) : ∃ news next t, Visit.Made s v news next t ∧
    ∀ b log, ∃ log', v.step (s.wired b log) = (next, t.wired (b.publishAll news) log') := by
  cases v with
  | start =>
    cases hb : s.bound with
    | none =>
      refine ⟨_, _, _, .unbound hb, fun b log => ?_⟩
      simp only [Visit.step, wired, hb]
      exact ⟨_, rfl⟩
    | some id =>
      refine ⟨_, _, _, .read hb, fun b log => ?_⟩
      simp only [Visit.step, wired, hb]
      exact ⟨_, rfl⟩
  | claim id =>
    by_cases hp : s.lifecycle.phase = .idle
    · refine ⟨_, _, _, .claimed id hp, fun b log => ?_⟩
      simp only [Visit.step, beginRun, wired, Lifecycle.beginRun, hp, if_true]
      exact ⟨_, rfl⟩
    · refine ⟨_, _, _, .busy id hp, fun b log => ?_⟩
      simp only [Visit.step, beginRun, wired, Lifecycle.beginRun, hp, if_false]
      exact ⟨_, rfl⟩
  | excuse => exact ⟨_, _, _, .excused, fun b log => ⟨_, rfl⟩⟩
  | enlist id => exact ⟨_, _, _, .enlisted id, fun b log => ⟨_, rfl⟩⟩
  | herald id run => exact ⟨_, _, _, .heralded id run, fun b log => ⟨_, rfl⟩⟩
  | login id run =>
    exact Visit.made_send (.inl rfl) (fun _ => rfl) s fun w hw ho => .loggedIn run hw ho
  | request id run =>
    exact Visit.made_send (.inr rfl) (fun _ => rfl) s fun w hw ho => .requested run hw ho
  | lose run f => exact ⟨_, _, _, .lost run f, fun b log => ⟨_, rfl⟩⟩
  | withdraw f =>
    cases hp : s.lifecycle.phase.isUnderWay with
    | true =>
      refine ⟨_, _, _, .withdrawn f hp, fun b log => ?_⟩
      simp only [Visit.step, abort, settleMove, wired, Lifecycle.abort_of_underWay hp]
      exact ⟨_, rfl⟩
    | false =>
      refine ⟨_, _, _, .kept f hp, fun b log => ?_⟩
      simp only [Visit.step, abort, settleMove, wired, Lifecycle.abort_of_not_underWay hp]
      exact ⟨_, rfl⟩
  | acknowledge =>
    by_cases hp : s.lifecycle.phase = .completed
    · refine ⟨_, _, _, .acknowledged hp, fun b log => ?_⟩
      simp only [Visit.step, Station.acknowledge, settleMove, wired,
        Lifecycle.acknowledge_of_completed hp]
      exact ⟨_, rfl⟩
    · refine ⟨_, _, _, .refused hp, fun b log => ?_⟩
      simp only [Visit.step, Station.acknowledge, settleMove, wired,
        Lifecycle.acknowledge_of_not_completed hp]
      exact ⟨_, rfl⟩
  | tell source target answer => exact ⟨_, _, _, .told source target answer, fun b log => ⟨_, rfl⟩⟩

theorem Duty.made_reply (run : RunId) (reply : Reply) (s : Station σ) :
    ∃ news next t, Duty.Made s (.carry (.reply (.run run) reply)) news next t ∧
      ∀ b log, ∃ log', Duty.step (.carry (.reply (.run run) reply)) (s.wired b log) =
        (next, t.wired (b.publishAll news) log') := by
  cases reply with
  | reported receipt => exact ⟨_, _, _, .uploaded run receipt, fun b log => ⟨_, rfl⟩⟩
  | reportFailed reason => exact ⟨_, _, _, .unreported run reason, fun b log => ⟨_, rfl⟩⟩
  | started =>
    by_cases hc : s.current = some run
    · exact ⟨_, _, _, .begun hc, fun b log => ⟨log, if_pos hc⟩⟩
    · exact ⟨_, _, _, .stale (.inl rfl) hc, fun b log => ⟨_, if_neg hc⟩⟩
  | finished r =>
    by_cases hc : s.current = some run
    · cases hr : r.isValid with
      | true =>
        refine ⟨_, _, _, .tested hc hr, fun b log => ⟨log, (if_pos hc).trans ?_⟩⟩
        rw [hr]
        rfl
      | false =>
        refine ⟨_, _, _, .failed hc hr, fun b log => ⟨log, (if_pos hc).trans ?_⟩⟩
        rw [hr]
        rfl
    · exact ⟨_, _, _, .stale (.inr ⟨r, rfl⟩) hc, fun b log => ⟨_, if_neg hc⟩⟩

theorem Duty.made_complete (run : RunId) (r : Record) (s : Station σ) :
    ∃ news next t, Duty.Made s (.complete run r) news next t ∧
      ∀ b log, ∃ log', Duty.step (.complete run r) (s.wired b log) =
        (next, t.wired (b.publishAll news) log') := by
  by_cases h : s.lifecycle.phase = .testing ∧ r.isValid = true
  · have hl : s.lifecycle.complete r =
        .ok { s.lifecycle.enter .completed with latest := some r } := by
      simp [Lifecycle.complete, Lifecycle.transition, h, Phase.mayEnter, Except.map]
    refine ⟨_, _, _, .completed run h.1 h.2, fun b log => ?_⟩
    simp only [Duty.step, Station.complete, settleMove, wired, hl]
    exact ⟨_, rfl⟩
  · obtain ⟨f, hl⟩ : ∃ f, s.lifecycle.complete r = .error f := by
      unfold Lifecycle.complete
      split
      · next hr =>
        refine ⟨s.lifecycle.refusal .completed, ?_⟩
        cases hp : s.lifecycle.phase <;>
          simp [Lifecycle.transition, hp, hr, Phase.mayEnter, Except.map] at h ⊢
      · exact ⟨_, rfl⟩
    refine ⟨_, _, _, .withheld run r h, fun b log => ?_⟩
    simp only [Duty.step, Station.complete, settleMove, wired, hl]
    exact ⟨_, rfl⟩

theorem Duty.made (d : Duty) (s : Station σ) : ∃ news next t, Duty.Made s d news next t ∧
    ∀ b log, ∃ log', d.step (s.wired b log) = (next, t.wired (b.publishAll news) log') := by
  cases d with
  | carry e =>
    cases e with
    | note n => exact ⟨_, _, _, .noted n, fun b log => ⟨_, rfl⟩⟩
    | reply t reply =>
      cases t with
      | run run => exact Duty.made_reply run reply s
      | target id kind =>
        obtain ⟨news, t, h, ht⟩ := s.performed (.reply (.target id kind) reply)
        cases h with
        | deposited _ _ _ targets =>
          refine ⟨_, _, _, .deposited id kind reply targets, fun b log => ?_⟩
          obtain ⟨log', hp⟩ := ht b log
          exact ⟨log', congrArg (Prod.mk none) hp⟩
  | enter run =>
    by_cases hp : s.lifecycle.phase = .preparing
    · have hl : s.lifecycle.transition .testing = .ok (s.lifecycle.enter .testing) := by
        simp [Lifecycle.transition, hp, Phase.mayEnter]
      refine ⟨_, _, _, .entered run hp, fun b log => ?_⟩
      simp only [Duty.step, transition, settleMove, wired, hl, hp]
      exact ⟨_, rfl⟩
    · have hl : s.lifecycle.transition .testing = .error (s.lifecycle.refusal .testing) := by
        cases hp' : s.lifecycle.phase <;>
          simp [Lifecycle.transition, hp', Phase.mayEnter] at hp ⊢
      refine ⟨_, _, _, .barred run hp, fun b log => ?_⟩
      simp only [Duty.step, transition, settleMove, wired, hl]
      exact ⟨_, rfl⟩
  | complete run r => exact Duty.made_complete run r s
  | unveil run r => exact ⟨_, _, _, .unveiled run r, fun b log => ⟨_, rfl⟩⟩
  | present run r => exact ⟨_, _, _, .presented run r, fun b log => ⟨_, rfl⟩⟩
  | address run r => exact ⟨_, _, _, .addressed run r, fun b log => ⟨log, rfl⟩⟩
  | upload id run r =>
    rcases s.open_or_closed id with ⟨w, hw, ho⟩ | hc
    · refine ⟨_, _, _, .submitted run r hw ho, fun b log => ?_⟩
      obtain ⟨log', h⟩ := send_of_open Worker.threadName (.report r (some (.run run)))
        (s := s.wired b log) hw ho
      refine ⟨log', ?_⟩
      simp only [Duty.step, h]
      rfl
    · refine ⟨_, _, _, .missed id run r, fun b log => ?_⟩
      obtain ⟨log', h⟩ := send_of_closed Worker.threadName (.report r (some (.run run)))
        (s := s.wired b log) hc
      simp only [Duty.step, h]
      exact ⟨_, rfl⟩
  | drop run reason => exact ⟨_, _, _, .dropped run reason, fun b log => ⟨_, rfl⟩⟩
  | abort run reason =>
    cases hp : s.lifecycle.phase.isUnderWay with
    | true =>
      refine ⟨_, _, _, .aborted run reason hp, fun b log => ?_⟩
      simp only [Duty.step, Station.abort, settleMove, wired, Lifecycle.abort_of_underWay hp]
      exact ⟨_, rfl⟩
    | false =>
      refine ⟨_, _, _, .kept run reason hp, fun b log => ?_⟩
      simp only [Duty.step, Station.abort, settleMove, wired, Lifecycle.abort_of_not_underWay hp]
      exact ⟨_, rfl⟩
  | tell source target failure => exact ⟨_, _, _, .told source target failure, fun b log => ⟨_, rfl⟩⟩
  | fail reason => exact ⟨_, _, _, .mourned reason, fun b log => ⟨_, rfl⟩⟩

end LinkTest.Station
