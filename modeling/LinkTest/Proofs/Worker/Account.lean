import LinkTest.Proofs.Worker.Handling

/-!
# The account of a worker

Messages handled one after the other, without a queue, a thread or a session: an account keeps the
server, the result of the latest login and the calls. A worker agrees with the account of the
messages that it has handled, and its session is read off the latest login.
-/

namespace LinkTest

/-- What some messages have come to. -/
structure Account (σ : Type) where
  server : σ
  /-- The result of the latest login, if there was one. -/
  login : Option (Except Failure SessionToken)
  calls : List Call

namespace Account

variable {σ : Type}

def opened (server : σ) : Account σ := ⟨server, none, []⟩

/-- The token of the latest login, if it succeeded. -/
def token? (a : Account σ) : Option SessionToken :=
  match a.login with
  | some (.ok token) => some token
  | _ => none

/-- The session that the latest login has left. -/
def session (a : Account σ) : Session :=
  match a.login with
  | none => .loggedOut
  | some (.ok token) => .active token
  | some (.error f) => .failed f.message

theorem session_eq_active_iff (a : Account σ) (token : SessionToken) :
    a.session = .active token ↔ a.token? = some token := by
  unfold session token?
  rcases a.login with _ | _ | token' <;> simp

variable [Server σ]

/-- One message: a login is made with the credentials given or else the worker's own, a test and
the upload of a valid record are made with the token of the latest login if it succeeded. -/
def handle (limit : Span) (own : Credentials) (a : Account σ) : Message → Account σ
  | .login c =>
    { server := (Server.login limit (c.getD own) a.server).2
      login := (Server.login limit (c.getD own) a.server).1.result? limit
      calls := a.calls ++ [.login (c.getD own)] }
  | .requestTest _ =>
    match a.token? with
    | some token => { a with
        server := (Server.test limit token a.server).2
        calls := a.calls ++ [.test token] }
    | none => a
  | .report r _ =>
    if r.isValid then
      match a.token? with
      | some token => { a with
          server := (Server.report limit token r a.server).2
          calls := a.calls ++ [.report token r] }
      | none => a
    else a
  | .quit => a

/-- The account of some messages, oldest first, with a server in its first state. -/
def after (limit : Span) (own : Credentials) (server : σ) (ms : List Message) : Account σ :=
  ms.foldl (handle limit own) (opened server)

@[simp] theorem after_nil (limit : Span) (own : Credentials) (server : σ) :
    after limit own server [] = opened server := rfl

theorem after_concat (limit : Span) (own : Credentials) (server : σ) (ms : List Message)
    (m : Message) :
    after limit own server (ms ++ [m]) = (after limit own server ms).handle limit own m := by
  simp [after, List.foldl_append]

/-! ## Agreement with a worker -/

/-- A worker that has come to what the account says. -/
structure Agrees (a : Account σ) (w : Worker σ) : Prop where
  server : w.server = a.server
  session : w.session = a.session
  calls : w.calls = a.calls

omit [Server σ] in
theorem agrees_opened (server : σ) (own : Credentials) (limit : Span) :
    (opened server).Agrees (Worker.new server own limit) := ⟨rfl, rfl, rfl⟩

/-- Handling a message keeps a worker in agreement with its account. -/
theorem Agrees.handle {a : Account σ} {w : Worker σ} (ha : a.Agrees w) (stamps : Nat → Stamp)
    (m : Message) (hm : m.isQuit = false) (h : (w.handle stamps m).1.thread ≠ .crashed) :
    (a.handle w.limit w.credentials m).Agrees (w.handle stamps m).1 := by
  cases m with
  | login c =>
    obtain ⟨result, hr, hw, -⟩ := Worker.logIn_spec _ w h
    rw [Worker.handle, hw]
    rw [ha.server] at hr
    refine ⟨by simp [Account.handle, ha.server], ?_, by simp [Account.handle, ha.calls]⟩
    cases result <;> simp [Account.handle, Account.session, hr]
  | requestTest t =>
    obtain ⟨hw, -⟩ := Worker.makeTest_spec _ t w h
    rw [Worker.handle, hw]
    cases ht : a.token? with
    | some token =>
      have hs : w.session = .active token :=
        ha.session.trans ((a.session_eq_active_iff token).2 ht)
      rw [hs]
      simp only [Account.handle, ht]
      exact ⟨by simp [ha.server], hs.symm.trans ha.session, by simp [ha.calls]⟩
    | none =>
      have hs : ∀ token, w.session ≠ .active token := fun token he => by
        rw [ha.session, session_eq_active_iff, ht] at he
        cases he
      simpa only [Account.handle, ht, hs] using ha
  | report r t =>
    obtain ⟨hw, -⟩ := Worker.upload_spec (stamps 0) r t w h
    rw [Worker.handle, hw]
    by_cases hv : r.isValid
    · simp only [Account.handle, hv, if_true]
      cases ht : a.token? with
      | some token =>
        have hs : w.session = .active token :=
          ha.session.trans ((a.session_eq_active_iff token).2 ht)
        rw [hs]
        exact ⟨by simp [ha.server], hs.symm.trans ha.session, by simp [ha.calls]⟩
      | none =>
        have hs : ∀ token, w.session ≠ .active token := fun token he => by
          rw [ha.session, session_eq_active_iff, ht] at he
          cases he
        simpa only [hs] using ha
    · simpa [Account.handle, hv] using ha
  | quit => cases hm

theorem Agrees.step {a : Account σ} {w : Worker σ} (ha : a.Agrees w) (stamps : Nat → Stamp)
    {m : Message} {rest : List Message} (ho : w.isOpen = true) (hq : w.queue = m :: rest)
    (hm : m.isQuit = false) (h : (w.step stamps).1.thread ≠ .crashed) :
    (a.handle w.limit w.credentials m).Agrees (w.step stamps).1 := by
  rw [Worker.step_fst stamps ho hq] at h ⊢
  have hr : a.Agrees { w with queue := rest } := ⟨ha.server, ha.session, ha.calls⟩
  exact hr.handle stamps m hm h

end Account
end LinkTest
