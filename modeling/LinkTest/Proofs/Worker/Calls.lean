import LinkTest.Proofs.Worker.Service

/-!
# The calls of a worker

Main statement: whatever the schedule, the calls that a worker has made are those of the account of
the messages taken before the first `quit`, followed by the farewell once `quit` was taken, and its
session is the one that the latest login has left. Between two logins every call carries the token
that the first of them returned, and none is made if it returned no token.
-/

namespace LinkTest

namespace Message

def isLogin : Message → Bool
  | .login _ => true
  | _ => false

end Message

/-- A call that is made on behalf of a session. -/
def Call.Uses (token : SessionToken) : Call → Prop
  | .test t => t = token
  | .report t r => t = token ∧ r.isValid = true
  | _ => False

namespace Account

variable {σ : Type} [Server σ] (limit : Span) (own : Credentials)

/-- A message other than a login leaves the latest login alone and makes calls for its token at
most. -/
theorem handle_of_not_login (a : Account σ) (m : Message) (hm : m.isLogin = false) :
    (a.handle limit own m).login = a.login ∧
    ∃ made, (a.handle limit own m).calls = a.calls ++ made ∧
      ∀ call ∈ made, ∃ token, a.login = some (.ok token) ∧ call.Uses token := by
  have htoken : ∀ token, a.token? = some token → a.login = some (.ok token) := by
    intro token ht
    unfold token? at ht
    split at ht
    · next t hl => rw [hl, Option.some.inj ht]
    · cases ht
  cases m with
  | login c => cases hm
  | requestTest t =>
    simp only [handle]
    split
    · next token ht =>
      refine ⟨rfl, [.test token], rfl, ?_⟩
      intro call hc
      rw [List.mem_singleton.1 hc]
      exact ⟨token, htoken token ht, rfl⟩
    · exact ⟨rfl, [], by simp, by simp⟩
  | report r t =>
    simp only [handle]
    split
    · next hv =>
      split
      · next token ht =>
        refine ⟨rfl, [.report token r], rfl, ?_⟩
        intro call hc
        rw [List.mem_singleton.1 hc]
        exact ⟨token, htoken token ht, rfl, hv⟩
      · exact ⟨rfl, [], by simp, by simp⟩
    · exact ⟨rfl, [], by simp, by simp⟩
  | quit => exact ⟨rfl, [], by simp [handle], by simp⟩

/-- The same for any number of messages without a login among them. -/
theorem foldl_of_not_login (a : Account σ) (ms : List Message)
    (hms : ∀ m ∈ ms, m.isLogin = false) :
    (ms.foldl (handle limit own) a).login = a.login ∧
    ∃ made, (ms.foldl (handle limit own) a).calls = a.calls ++ made ∧
      ∀ call ∈ made, ∃ token, a.login = some (.ok token) ∧ call.Uses token := by
  induction ms generalizing a with
  | nil => exact ⟨rfl, [], by simp, by simp⟩
  | cons m rest ih =>
    obtain ⟨hl, made, hc, hu⟩ := handle_of_not_login limit own a m (hms m List.mem_cons_self)
    obtain ⟨hl', made', hc', hu'⟩ := ih (a.handle limit own m) fun n hn =>
      hms n (List.mem_cons_of_mem m hn)
    refine ⟨hl'.trans hl, made ++ made', by rw [List.foldl_cons, hc', hc, List.append_assoc], ?_⟩
    intro call hcall
    rcases List.mem_append.1 hcall with hcall | hcall
    · exact hu call hcall
    · rw [← hl]
      exact hu' call hcall

variable (server : σ)

/-- Before the first login no call is made and there is no session. -/
theorem after_of_not_login (ms : List Message) (hms : ∀ m ∈ ms, m.isLogin = false) :
    (after limit own server ms).login = none ∧ (after limit own server ms).calls = [] := by
  obtain ⟨hl, made, hc, hu⟩ := foldl_of_not_login limit own (opened server) ms hms
  have hmade : made = [] := List.eq_nil_iff_forall_not_mem.2 fun call hcall => by
    obtain ⟨token, ht, -⟩ := hu call hcall
    cases ht
  rw [hmade] at hc
  exact ⟨hl, hc⟩

/-- What the account says of the messages from the latest login on. -/
theorem after_login (before : List Message) (c : Option Credentials) (later : List Message)
    (hlater : ∀ m ∈ later, m.isLogin = false) :
    (after limit own server (before ++ .login c :: later)).login =
      (Server.login limit (c.getD own) (after limit own server before).server).1.result? limit ∧
    ∃ made, (after limit own server (before ++ .login c :: later)).calls =
        (after limit own server before).calls ++ .login (c.getD own) :: made ∧
      ∀ call ∈ made, ∃ token,
        (Server.login limit (c.getD own) (after limit own server before).server).1.result? limit =
          some (.ok token) ∧ call.Uses token := by
  have hfold : after limit own server (before ++ .login c :: later) =
      later.foldl (handle limit own) ((after limit own server before).handle limit own (.login c)) := by
    simp [after, List.foldl_append]
  obtain ⟨hl, made, hc, hu⟩ := foldl_of_not_login limit own
    ((after limit own server before).handle limit own (.login c)) later hlater
  rw [hfold]
  exact ⟨hl, made, by rw [hc]; simp [handle], hu⟩

end Account

variable {σ : Type} [Server σ] {limit : Span} {own : Credentials} {server : σ}

/-- The state of a worker after the messages taken, whether or not `quit` was among them. -/
theorem Settled.calls_session {taken : List Message} {w : Worker σ}
    (h : Settled limit own server taken w) :
    w.calls = (Account.after limit own server (beforeQuit taken)).calls ++
      (if hasQuit taken then [.disconnect] else []) ∧
    w.session = (if hasQuit taken then .loggedOut
      else (Account.after limit own server (beforeQuit taken)).session) := by
  cases hq : hasQuit taken with
  | false =>
    obtain ⟨-, hg⟩ := h.going hq
    rw [beforeQuit_eq_self hq]
    exact ⟨by simp [hg.calls], hg.session⟩
  | true =>
    obtain ⟨-, -, hs, hc⟩ := h.closed hq
    exact ⟨hc, hs⟩

/-- A worker does what its messages say, one after the other in the order in which they were
accepted, up to the first `quit`; and no call carries a token other than that of the latest login. -/
theorem calls_eq_account {d : Desk σ} (hd : d.Reached server own limit)
    (h : d.worker.thread ≠ .crashed) :
    ∃ taken, taken ++ d.worker.queue = d.accepted ∧
      d.worker.calls = (Account.after limit own server (beforeQuit taken)).calls ++
        (if hasQuit taken then [.disconnect] else []) ∧
      d.worker.session = (if hasQuit taken then .loggedOut
        else (Account.after limit own server (beforeQuit taken)).session) ∧
      ((∀ m ∈ beforeQuit taken, m.isLogin = false) →
        (Account.after limit own server (beforeQuit taken)).session = .loggedOut ∧
        (Account.after limit own server (beforeQuit taken)).calls = []) ∧
      ∀ before c later, beforeQuit taken = before ++ .login c :: later →
        (∀ m ∈ later, m.isLogin = false) →
        (Account.after limit own server (beforeQuit taken)).login =
          (Server.login limit (c.getD own)
            (Account.after limit own server before).server).1.result? limit ∧
        ∃ made, (Account.after limit own server (beforeQuit taken)).calls =
            (Account.after limit own server before).calls ++ .login (c.getD own) :: made ∧
          ∀ call ∈ made, ∃ token,
            (Server.login limit (c.getD own)
              (Account.after limit own server before).server).1.result? limit =
                some (.ok token) ∧ call.Uses token := by
  obtain ⟨tr, -, -, ha, hs⟩ := (inService_of_reached hd h).story
  obtain ⟨hc, hsession⟩ := hs.calls_session
  refine ⟨tr.messages, ha, hc, hsession, ?_, ?_⟩
  · intro hn
    obtain ⟨hl, hcalls⟩ := Account.after_of_not_login limit own server _ hn
    exact ⟨by simp [Account.session, hl], hcalls⟩
  · intro before c later hb hlater
    rw [hb]
    exact Account.after_login limit own server before c later hlater

theorem calls_of_rehearsed :
    Desk.rehearsed.worker.thread ≠ .crashed ∧
    ∃ taken, taken ++ Desk.rehearsed.worker.queue = Desk.rehearsed.accepted ∧
      Desk.rehearsed.worker.calls =
        (Account.after Worker.defaultLimit .anonymous Desk.rehearsalScript
          (beforeQuit taken)).calls ++ (if hasQuit taken then [.disconnect] else []) := by
  have h : Desk.rehearsed.worker.thread ≠ .crashed := by decide +kernel
  obtain ⟨taken, ha, hc, -⟩ := calls_eq_account ⟨Desk.rehearsal, rfl⟩ h
  exact ⟨h, taken, ha, hc⟩

end LinkTest
