import LinkTest.Proofs.Station.Likeness

/-!
# Tokens are kept secret

The token of credentials is for logins alone. Two schedules may differ in the tokens that workers
are given and that logins are asked for with, as long as the servers say the same in both. Then
everything else is the same in both at every moment: what is answered, replied, published and
logged, what became of the sessions, and the texts in which messages and credentials are shown.
-/

namespace LinkTest

namespace Credentials

/-- The credentials with the token left out. -/
def veiled (c : Credentials) : Credentials := { c with token := "" }

@[simp] theorem describe_veiled (c : Credentials) : c.veiled.describe = c.describe := rfl

end Credentials

namespace Message

def veiled : Message → Message
  | login c => login (c.map Credentials.veiled)
  | m => m

@[simp] theorem kind_veiled (m : Message) : m.veiled.kind = m.kind := by
  cases m <;> rfl

@[simp] theorem describe_veiled (m : Message) : m.veiled.describe = m.describe := by
  cases m with
  | login c => cases c <;> rfl
  | _ => rfl

/-- Messages that are the same with the tokens left out are the same, or both are logins. -/
theorem eq_or_login_of_veiled {m m' : Message} (h : m.veiled = m'.veiled) :
    m = m' ∨ ∃ c c', m = login c ∧ m' = login c' ∧
      c.map Credentials.veiled = c'.map Credentials.veiled := by
  cases m with
  | login c =>
    cases m' with
    | login c' => exact .inr ⟨c, c', rfl, rfl, login.inj h⟩
    | _ => cases h
  | _ =>
    cases m' with
    | login c' => cases h
    | _ => exact .inl h

end Message

/-- The call with the token of a login left out. -/
def Call.veiled : Call → Call
  | login c => login c.veiled
  | c => c

/-- What a server says when it is called. -/
inductive Said
  | session (outcome : Outcome SessionToken)
  | record (outcome : Outcome Record)
  | receipt (outcome : Outcome Receipt)

namespace Worker

variable {σ : Type}

/-- The worker as it is seen by someone who sees neither tokens nor the server's state. -/
def veiled (w : Worker σ) : Worker Unit :=
  { w with
    server := ()
    credentials := w.credentials.veiled
    queue := w.queue.map Message.veiled
    calls := w.calls.map Call.veiled }

/-- Two workers look the same after their steps, which have the same effects. -/
def SameSteps (x y : Worker σ × List Effect) : Prop := x.1.veiled = y.1.veiled ∧ x.2 = y.2

variable {w w' : Worker σ}

theorem veiled_cases (h : w.veiled = w'.veiled) : ∃ server own queue calls,
    w' = { w with server := server, credentials := own, queue := queue, calls := calls } ∧
      w.credentials.veiled = own.veiled ∧ w.queue.map Message.veiled = queue.map Message.veiled ∧
      w.calls.map Call.veiled = calls.map Call.veiled := by
  refine ⟨w'.server, w'.credentials, w'.queue, w'.calls, ?_⟩
  cases w
  cases w'
  simp only [veiled, Worker.mk.injEq] at h ⊢
  simp [h]

theorem session_eq_of_veiled (h : w.veiled = w'.veiled) : w.session = w'.session :=
  (congrArg Worker.session h :)

theorem isOpen_eq_of_veiled (h : w.veiled = w'.veiled) : w.isOpen = w'.isOpen :=
  (congrArg Worker.isOpen h :)

theorem queue_eq_of_veiled (h : w.veiled = w'.veiled) :
    w.queue.map Message.veiled = w'.queue.map Message.veiled := (congrArg Worker.queue h :)

theorem sameSteps (h : w.veiled = w'.veiled) (effects : List Effect) :
    SameSteps (w, effects) (w', effects) := ⟨h, rfl⟩

theorem veiled_session (h : w.veiled = w'.veiled) (s : Session) :
    { w with session := s }.veiled = { w' with session := s }.veiled :=
  (congrArg (fun v : Worker Unit => { v with session := s }) h :)

theorem veiled_end (h : w.veiled = w'.veiled) (thread : Thread) :
    { w with thread := thread, queue := [] }.veiled =
      { w' with thread := thread, queue := [] }.veiled :=
  (congrArg (fun v : Worker Unit => { v with thread := thread, queue := [] }) h :)

/-- A call has been made, whatever has become of the server. -/
theorem veiled_called (h : w.veiled = w'.veiled) {c c' : Call} (hc : c.veiled = c'.veiled)
    (server server' : σ) :
    { w with server := server, calls := w.calls ++ [c] }.veiled =
      { w' with server := server', calls := w'.calls ++ [c'] }.veiled := by
  obtain ⟨-, own, queue, calls, rfl, hown, hqueue, hcalls⟩ := veiled_cases h
  simp only [veiled, List.map_append, List.map_singleton, hown, hqueue, hcalls, hc]

theorem veiled_release (w : Worker σ) :
    w.release.1.veiled = w.veiled.release.1 ∧ w.release.2 = w.veiled.release.2 := by
  have howner : w.veiled.owner = w.owner := rfl
  unfold release
  rw [howner]
  cases w.owner <;> exact ⟨rfl, rfl⟩

theorem sameSteps_release (h : w.veiled = w'.veiled) : SameSteps w.release w'.release := by
  refine ⟨?_, ?_⟩
  · rw [(veiled_release w).1, (veiled_release w').1, h]
  · rw [(veiled_release w).2, (veiled_release w').2, h]

theorem sameSteps_crash (h : w.veiled = w'.veiled) : SameSteps w.crash w'.crash :=
  sameSteps_release (veiled_end h .crashed)

theorem reject_veiled (stamp : Stamp) (m : Message) : reject stamp m.veiled = reject stamp m := by
  cases m <;> rfl

/-- What is owed to a queue has nothing to do with the tokens in it. -/
theorem rejects_veiled (stamps : Nat → Stamp) (queue : List Message) :
    ((queue.map Message.veiled).mapIdx fun i m => reject (stamps i) m) =
      queue.mapIdx fun i m => reject (stamps i) m := by
  induction queue generalizing stamps with
  | nil => rfl
  | cons m rest ih =>
    rw [List.map_cons, List.mapIdx_cons, List.mapIdx_cons, reject_veiled]
    exact congrArg (_ :: ·) (ih fun i => stamps (i + 1))

variable [Server σ]

/-- What the server says when the worker handles the message, if it is called then. -/
def saidTo? (w : Worker σ) : Message → Option Said
  | .login c => some (.session (Server.login w.limit (c.getD w.credentials) w.server).1)
  | .requestTest _ =>
    match w.session with
    | .active token => some (.record (Server.test w.limit token w.server).1)
    | _ => none
  | .report r _ =>
    match w.session with
    | .active token =>
      if r.isValid then some (.receipt (Server.report w.limit token r w.server).1) else none
    | _ => none
  | .quit => none

/-- What the server says in the worker's next step, if it is called then. -/
def said? (w : Worker σ) : Option Said :=
  if w.isOpen then w.queue.head?.bind w.saidTo? else none

theorem sameSteps_logIn (h : w.veiled = w'.veiled) {c c' : Credentials}
    (hc : c.veiled = c'.veiled)
    (hsaid : (Server.login w.limit c w.server).1 = (Server.login w'.limit c' w'.server).1) :
    SameSteps (w.logIn c) (w'.logIn c') := by
  have hname : c.username = c'.username := (congrArg Credentials.username hc :)
  have hcall : Call.veiled (.login c) = Call.veiled (.login c') := congrArg Call.login hc
  obtain ⟨server, own, queue, calls, rfl, -⟩ := veiled_cases h
  unfold logIn
  dsimp only at hsaid ⊢
  generalize Server.login w.limit c w.server = x at hsaid ⊢
  generalize Server.login w.limit c' server = y at hsaid ⊢
  obtain ⟨outcome, s⟩ := x
  obtain ⟨outcome', s'⟩ := y
  obtain rfl : outcome = outcome' := hsaid
  have hcalled := veiled_called h hcall s s'
  dsimp only
  cases outcome.result? w.limit with
  | none => exact sameSteps_crash hcalled
  | some result =>
    cases result with
    | ok token => exact ⟨veiled_session hcalled _, by rw [hname]⟩
    | error f => exact ⟨veiled_session hcalled _, by rw [hname]⟩

theorem sameSteps_makeTest (h : w.veiled = w'.veiled) (stamp : Stamp) (t : ReplyTo)
    (hsaid : ∀ x ∈ w.saidTo? (.requestTest t), ∀ y ∈ w'.saidTo? (.requestTest t), x = y) :
    SameSteps (w.makeTest stamp t) (w'.makeTest stamp t) := by
  have hsession := session_eq_of_veiled h
  cases hs : w.session with
  | loggedOut =>
    simp only [makeTest, hs, ← hsession]
    exact sameSteps h _
  | failed reason =>
    simp only [makeTest, hs, ← hsession]
    exact sameSteps h _
  | active token =>
    obtain ⟨server, own, queue, calls, rfl, -⟩ := veiled_cases h
    simp only [saidTo?, makeTest, hs] at hsaid ⊢
    generalize Server.test w.limit token w.server = x at hsaid ⊢
    generalize Server.test w.limit token server = y at hsaid ⊢
    obtain ⟨outcome, s⟩ := x
    obtain ⟨outcome', s'⟩ := y
    obtain rfl : outcome = outcome' := Said.record.inj (hsaid _ rfl _ rfl)
    have hcalled := veiled_called h (c := .test token) rfl s s'
    simp only [hs] at hcalled
    dsimp only
    cases outcome.result? w.limit with
    | none =>
      have hcrashed := sameSteps_crash hcalled
      exact ⟨hcrashed.1, congrArg (Effect.reply t .started :: ·) hcrashed.2⟩
    | some result =>
      cases result with
      | ok r => exact sameSteps hcalled _
      | error f => exact sameSteps hcalled _

theorem sameSteps_upload (h : w.veiled = w'.veiled) (r : Record) (t : Option ReplyTo)
    (hsaid : ∀ x ∈ w.saidTo? (.report r t), ∀ y ∈ w'.saidTo? (.report r t), x = y) :
    SameSteps (w.upload r t) (w'.upload r t) := by
  have hsession := session_eq_of_veiled h
  by_cases hr : r.isValid = true
  · cases hs : w.session with
    | loggedOut =>
      simp only [upload, hr, if_true, hs, ← hsession]
      exact sameSteps h _
    | failed reason =>
      simp only [upload, hr, if_true, hs, ← hsession]
      exact sameSteps h _
    | active token =>
      obtain ⟨server, own, queue, calls, rfl, -⟩ := veiled_cases h
      simp only [saidTo?, upload, hr, if_true, hs] at hsaid ⊢
      generalize Server.report w.limit token r w.server = x at hsaid ⊢
      generalize Server.report w.limit token r server = y at hsaid ⊢
      obtain ⟨outcome, s⟩ := x
      obtain ⟨outcome', s'⟩ := y
      obtain rfl : outcome = outcome' := Said.receipt.inj (hsaid _ rfl _ rfl)
      have hcalled := veiled_called h (c := .report token r) rfl s s'
      simp only [hs] at hcalled
      dsimp only
      cases outcome.result? w.limit with
      | none => exact sameSteps_crash hcalled
      | some result =>
        cases result with
        | ok receipt => exact sameSteps hcalled _
        | error f => exact sameSteps hcalled _
  · simp only [upload, if_neg hr]
    exact sameSteps h _

theorem sameSteps_finish (h : w.veiled = w'.veiled) (stamps : Nat → Stamp) :
    SameSteps (w.finish stamps) (w'.finish stamps) := by
  have hrejects : (w.queue.mapIdx fun i m => reject (stamps i) m) =
      w'.queue.mapIdx fun i m => reject (stamps i) m := by
    rw [← rejects_veiled, queue_eq_of_veiled h, rejects_veiled]
  have hcalled := veiled_called h (c := .disconnect) rfl (Server.disconnect w.server)
    (Server.disconnect w'.server)
  have hended := sameSteps_release (veiled_end (veiled_session hcalled .loggedOut) .ended)
  refine ⟨hended.1, ?_⟩
  unfold finish
  rw [hrejects]
  exact congrArg (_ ++ note .debug "Worker: exiting" :: ·) hended.2

theorem sameSteps_handle (h : w.veiled = w'.veiled) (stamps : Nat → Stamp) {m m' : Message}
    (hm : m.veiled = m'.veiled) (hsaid : ∀ x ∈ w.saidTo? m, ∀ y ∈ w'.saidTo? m', x = y) :
    SameSteps (w.handle stamps m) (w'.handle stamps m') := by
  rcases Message.eq_or_login_of_veiled hm with rfl | ⟨c, c', rfl, rfl, hc⟩
  · cases m with
    | login c =>
      refine sameSteps_logIn h ?_ (Said.session.inj (hsaid _ rfl _ rfl))
      cases c with
      | none => exact congrArg Worker.credentials h
      | some c => rfl
    | requestTest t => exact sameSteps_makeTest h (stamps 0) t hsaid
    | report r t => exact sameSteps_upload h r t hsaid
    | quit => exact sameSteps_finish h stamps
  · refine sameSteps_logIn h ?_ (Said.session.inj (hsaid _ rfl _ rfl))
    cases c <;> cases c' <;> first
      | exact congrArg Worker.credentials h
      | exact Option.some.inj hc
      | cases hc

/-- A step shows nothing of the tokens, provided that the server's answer does not. -/
theorem sameSteps_step (h : w.veiled = w'.veiled) (stamps : Nat → Stamp)
    (hsaid : ∀ x ∈ w.said?, ∀ y ∈ w'.said?, x = y) :
    SameSteps (w.step stamps) (w'.step stamps) := by
  have hopen := isOpen_eq_of_veiled h
  have hqueue := queue_eq_of_veiled h
  unfold step
  unfold said? at hsaid
  by_cases ho : w.isOpen = true
  · rw [if_pos ho, if_pos (hopen.symm.trans ho)] at hsaid ⊢
    cases hq : w.queue with
    | nil =>
      rw [hq] at hqueue
      rw [List.map_eq_nil_iff.1 hqueue.symm]
      exact sameSteps h _
    | cons m rest =>
      rw [hq] at hqueue
      obtain ⟨m', rest', hq', hm, hrest⟩ := List.map_eq_cons_iff.1 hqueue.symm
      rw [hq, hq'] at hsaid
      have hleft : { w with queue := rest }.veiled = { w' with queue := rest' }.veiled :=
        congrArg₂ (fun (v : Worker Unit) queue => { v with queue := queue }) h hrest.symm
      have hhandled := sameSteps_handle hleft stamps hm.symm hsaid
      have hkind : m.kind = m'.kind := by rw [← m.kind_veiled, ← hm, m'.kind_veiled]
      rw [hq']
      refine ⟨hhandled.1, ?_⟩
      dsimp only
      rw [hhandled.2, hkind]
  · rw [if_neg ho, if_neg fun h => ho (hopen.trans h)]
    exact sameSteps h _

end Worker

variable {σ : Type}

/-- Everything but the tokens and the servers is the same. -/
def Likeness.secrecy : Likeness σ where
  worker w w' := w.veiled = w'.veiled
  message m m' := m.veiled = m'.veiled
  targets := Eq
  log := Eq
  worker_refl _ := rfl
  message_refl _ := rfl
  kind_eq {m m'} h := by rw [← m.kind_veiled, h, m'.kind_veiled]
  standing_eq h := (congrArg Worker.standing h :)
  length_eq h := by simpa using congrArg List.length (Worker.queue_eq_of_veiled h)
  stand h f := (congrArg (Worker.stand · f) h :)
  post {w w' m m'} h hm := by
    obtain ⟨server, own, queue, calls, rfl, hown, hqueue, hcalls⟩ := Worker.veiled_cases h
    simp only [Worker.veiled, Worker.post, List.map_append, List.map_singleton, hown, hqueue,
      hcalls, hm]
  note h n := congrArg (Log.add · n) h
  setLevel h level := by rw [h]
  addTarget h := ⟨congrArg List.length h, fun t => congrArg (· ++ [t]) h⟩
  dropTarget h id := by rw [Station.dropTarget, Station.dropTarget, h]
  deposit {s t} ht hl id reply := by
    unfold Station.deposit
    rw [ht]
    split
    · exact ⟨rfl, hl⟩
    · exact ⟨ht, congrArg (Log.add · _) hl⟩

namespace Station

/-- The station as it is seen by someone who sees neither tokens nor the servers' states. -/
def veiled (s : Station σ) : Station Unit := { s with workers := s.workers.map Worker.veiled }

/-- The texts in which credentials and the messages that wait are shown to people. -/
def shown (s : Station σ) : List (String × List String) :=
  s.workers.map fun w => (w.credentials.describe, w.queue.map Message.describe)

theorem shown_veiled (s : Station σ) : s.veiled.shown = s.shown := by
  have hworker : ∀ w : Worker σ, (w.veiled.credentials.describe,
      w.veiled.queue.map Message.describe) =
        (w.credentials.describe, w.queue.map Message.describe) := by
    intro w
    simp only [Worker.veiled, Credentials.describe_veiled, List.map_map, Function.comp_def,
      Message.describe_veiled]
  rw [shown, veiled, List.map_map]
  exact List.map_congr_left fun w _ => hworker w

theorem alike_secrecy_iff {s t : Station σ} : s.Alike .secrecy t ↔ s.veiled = t.veiled := by
  have hworkers : ∀ ws ws' : List (Worker σ), List.Forall₂ Likeness.secrecy.worker ws ws' ↔
      ws.map Worker.veiled = ws'.map Worker.veiled := by
    intro ws ws'
    rw [← List.forall₂_eq_eq_eq, List.forall₂_map_left_iff, List.forall₂_map_right_iff]
    rfl
  constructor
  · rintro ⟨hw, rfl, rfl⟩
    have hveiled := (hworkers _ _).1 hw
    rw [veiled, veiled, hveiled]
  · intro h
    cases s
    cases t
    simp only [veiled, Station.mk.injEq] at h
    obtain ⟨rfl, rfl, hveiled, rfl, rfl, rfl, rfl, rfl, rfl, rfl⟩ := h
    exact .intro ((hworkers _ _).2 hveiled) rfl rfl

end Station

namespace Scene

def veiled (c : Scene σ) : Scene Unit := { c with station := c.station.veiled }

theorem alike_secrecy_iff {c d : Scene σ} : c.Alike .secrecy d ↔ c.veiled = d.veiled := by
  constructor
  · rintro ⟨hstation, hpending, hreceived⟩
    rw [veiled, veiled, Station.alike_secrecy_iff.1 hstation, hpending, hreceived]
  · intro h
    exact ⟨Station.alike_secrecy_iff.2 (congrArg Scene.station h), (congrArg Scene.pending h :),
      (congrArg Scene.received h :)⟩

/-- The text in which the credentials that come with a deed are shown to people. -/
def Deed.shown? : Deed σ → Option String
  | .move (.addWorker _ own _) => some own.describe
  | .move (.login _ credentials) => some (Message.login credentials).describe
  | _ => none

theorem Deed.Alike.shown?_eq {a b : Deed σ} (h : a.Alike .secrecy b) :
    a.shown? = b.shown? := by
  cases h with
  | same => rfl
  | @hire _ _ own own' _ hw =>
    have hown : own.veiled = own'.veiled := (congrArg Worker.credentials hw :)
    exact congrArg some (by rw [← own.describe_veiled, hown, own'.describe_veiled])
  | @login _ c c' hm =>
    have hveiled : (Message.login c).veiled = (Message.login c').veiled := hm
    exact congrArg some (by rw [← Message.describe_veiled, hveiled, Message.describe_veiled])

variable [Server σ]

/-- What a server says during a deed, if it is called then. -/
def said? (c : Scene σ) : Deed σ → Option Said
  | .move (.take id) =>
    match c.station.worker? id with
    | none => none
    | some w => if (c.pending id).isEmpty && !w.held then w.said? else none
  | _ => none

/-- Where servers are called in both schedules, they say the same. -/
def Concur (c d : Scene σ) : List (Deed σ) → List (Deed σ) → Prop
  | a :: as, b :: bs =>
    (∀ x ∈ c.said? a, ∀ y ∈ d.said? b, x = y) ∧ Concur (c.act a) (d.act b) as bs
  | _, _ => True

theorem stepAlike_of_concur {c d : Scene σ} (h : c.Alike .secrecy d) {id : Nat}
    (hsaid : ∀ x ∈ c.said? (.move (.take id)),
      ∀ y ∈ d.said? (.move (.take id)), x = y) : StepAlike .secrecy id c d := by
  intro w w' stamps hw hw' hp hh hveiled
  have hheld : w'.held = false := (Likeness.secrecy.held_eq hveiled).symm.trans hh
  simp only [said?, hw, hw', ← h.pending, hp, hh, hheld, List.isEmpty_nil, Bool.not_false,
    Bool.and_self, if_true] at hsaid
  exact Worker.sameSteps_step hveiled stamps hsaid

/-- One deed shows nothing of the tokens. -/
theorem agree_of_concur {c d : Scene σ} (h : c.Alike .secrecy d) {a b : Deed σ}
    (hab : a.Alike .secrecy b) (hsaid : ∀ x ∈ c.said? a, ∀ y ∈ d.said? b, x = y) :
    Agree .secrecy c d a b := by
  refine h.act hab fun id ha => ?_
  subst ha
  cases hab with
  | same => exact stepAlike_of_concur h hsaid

theorem alike_of_concur {c d : Scene σ} (h : c.Alike .secrecy d) {as bs : List (Deed σ)}
    (hab : List.Forall₂ (Deed.Alike .secrecy) as bs) (hsaid : Concur c d as bs) :
    (∀ n, (c.actAll (as.take n)).Alike .secrecy (d.actAll (bs.take n))) ∧
      (c.transcript as).map Prod.snd = (d.transcript bs).map Prod.snd := by
  induction hab generalizing c d with
  | nil => exact ⟨fun n => by simpa using h, rfl⟩
  | cons hhead _ ih =>
    have hagree := agree_of_concur h hhead hsaid.1
    obtain ⟨hrest, hanswers⟩ := ih hagree.alike hsaid.2
    constructor
    · intro n
      cases n with
      | zero => exact h
      | succ n => exact hrest n
    · exact congrArg₂ (· :: ·) hagree.answer hanswers

/-- Two schedules that differ in tokens alone, with servers that say the same in both, look the same
at every moment, show the same texts and give the same answers. -/
theorem tokens_secret {c d : Scene σ} (h : c.veiled = d.veiled) {as bs : List (Deed σ)}
    (hab : List.Forall₂ (Deed.Alike .secrecy) as bs) (hsaid : Concur c d as bs) :
    (∀ n, (c.actAll (as.take n)).veiled = (d.actAll (bs.take n)).veiled) ∧
      (∀ n, (c.actAll (as.take n)).station.shown = (d.actAll (bs.take n)).station.shown) ∧
      as.map Deed.shown? = bs.map Deed.shown? ∧
      (c.transcript as).map Prod.snd = (d.transcript bs).map Prod.snd := by
  obtain ⟨hmoments, hanswers⟩ := alike_of_concur (alike_secrecy_iff.2 h) hab hsaid
  refine ⟨fun n => alike_secrecy_iff.1 (hmoments n), fun n => ?_, ?_, hanswers⟩
  · have hstation := Station.alike_secrecy_iff.1 (hmoments n).station
    rw [← Station.shown_veiled, hstation, Station.shown_veiled]
  · rw [← List.forall₂_eq_eq_eq, List.forall₂_map_left_iff, List.forall₂_map_right_iff]
    exact hab.imp fun _ _ hab => hab.shown?_eq

theorem concur_cons {c d : Scene σ} {a b : Deed σ} {as bs : List (Deed σ)}
    (hsaid : c.said? a = d.said? b) (hrest : Concur (c.act a) (d.act b) as bs) :
    Concur c d (a :: as) (b :: bs) := by
  refine ⟨fun x hx y hy => ?_, hrest⟩
  rw [hsaid] at hx
  exact Option.mem_unique hx hy

/-- A worker logs in as its own user, and then in vain as another one with the same token. -/
def loginsWith (token : String) : List (Deed Script) :=
  let failing : Script := ⟨[.ended (.ok ⟨"first"⟩), .overdue], [], [], default⟩
  [.move (.addWorker failing ⟨"ada", token⟩ Worker.defaultLimit),
    .move (.startWorker 0),
    .move (.login 0 none),
    .move (.login 0 (some ⟨"grace", token⟩)),
    .move (.take 0),
    .move (.carry 0),
    .move (.carry 0),
    .move (.take 0),
    .move (.carry 0),
    .move (.carry 0)]

/-- The servers of both schedules are told different tokens, which makes no other difference. -/
theorem tokens_secret_of_logins :
    (((start fun _ => default).actAll (loginsWith "x")).station.workers.map (·.calls)) =
        [[.login ⟨"ada", "x"⟩, .login ⟨"grace", "x"⟩]] ∧
      (((start fun _ => default).actAll (loginsWith "y")).station.workers.map (·.calls)) =
        [[.login ⟨"ada", "y"⟩, .login ⟨"grace", "y"⟩]] ∧
      ∀ n, ((start fun _ => default).actAll ((loginsWith "x").take n)).veiled =
        ((start fun _ => default).actAll ((loginsWith "y").take n)).veiled := by
  refine ⟨rfl, rfl, (tokens_secret rfl ?_ ?_).1⟩
  · exact .cons (.hire rfl) (.cons (.same _) (.cons (.same _) (.cons (.login 0 rfl)
      (.cons (.same _) (.cons (.same _) (.cons (.same _) (.cons (.same _) (.cons (.same _)
        (.cons (.same _) .nil)))))))))
  · exact concur_cons rfl (concur_cons rfl (concur_cons rfl (concur_cons rfl (concur_cons rfl
      (concur_cons rfl (concur_cons rfl (concur_cons rfl (concur_cons rfl (concur_cons rfl
        trivial)))))))))

end Scene
end LinkTest
