import LinkTest.Proofs.Station.Attribution

/-!
# Uploads go under the numbers of their own tests, or stray

If no run overtakes the upload of the one before, and no binding changes in the midst of a start or
between a completion and its upload, each upload of a run goes under the numbers of its own test.
None of these conditions can be left out: in each case there is a schedule of permitted moves in
which the metrics of one run go under the numbers of another.
-/

namespace LinkTest

open Station (Visit Duty)

namespace Ensemble

variable {tested : Nat → RunId → Record → Settings → Prop} {handed : Nat → Record → Prop}
  {e : Ensemble Remote}

/-! ## The test of a run -/

theorem Tests.tested? {id : Nat} {run : RunId} {r : Record} {s : Settings} {w w' : Worker Remote}
    (h : e.Tests id run r s w w') : e.tested? (.take id) = some (run, .ended (.ok r)) := by
  simp [Ensemble.tested?, h.taken, h.test]

/-- The lines that reach the server of a worker in a move, by connection. -/
def linesSent (e : Ensemble Remote) (m : Move Remote) (id i : Nat) : List String :=
  match e.scene.station.worker? id, (e.apply m).scene.station.worker? id with
  | some w, some w' => (w'.server.network.linesOf i).drop (w.server.network.linesOf i).length
  | _, _ => []

theorem Attributed.uploaded (h : e.Attributed tested handed) {id : Nat} {w : Worker Remote}
    {token : SessionToken} {setId resultId : Int} {metrics : Metrics}
    (hw : e.taker? id = some w)
    (hq : w.request? = some (.report token setId resultId metrics)) :
    ∃ r t rest, w.queue = .report r t :: rest ∧ metrics = r.metrics ∧
      ((∃ run s, t = some (.run run) ∧ tested id run r s ∧
        setId = s.setId ∧ resultId = s.resultId) ∨
      (∀ run, t ≠ some (.run run)) ∧ handed id r) := by
  obtain ⟨-, hfree⟩ := taker?_eq_some_iff.1 hw
  obtain ⟨hid, -, -⟩ := Scene.taker?_eq_some_iff.1 hfree
  obtain ⟨r, t, rest, s, hqueue, hs, rfl, rfl, rfl⟩ := Worker.exists_of_request?_report hq
  refine ⟨r, t, rest, hqueue, rfl, ?_⟩
  by_cases ht : ∃ run, t = some (.run run)
  · obtain ⟨run, rfl⟩ := ht
    obtain ⟨-, s', hs', htested⟩ := h.queued id w [] r run rest hid hqueue
    obtain rfl := Option.some.inj (hs.symm.trans hs')
    exact .inl ⟨run, s, rfl, htested, rfl, rfl⟩
  · refine .inr ⟨fun run hr => ht ⟨run, hr⟩, (h.others id r t ?_).resolve_left ht⟩
    rw [Station.queueOf_eq hid, hqueue]
    exact List.mem_cons_self

theorem Attributed.sent (h : e.Attributed tested handed) {m : Move Remote}
    (hp : e.permits m = true) {id i : Nat} {line : String} (hl : line ∈ e.linesSent m id i) :
    ∃ w q, m = .take id ∧ e.taker? id = some w ∧ w.request? = some q ∧ line = q.line := by
  unfold linesSent at hl
  split at hl
  · next w w' hw hw' =>
    have hsame : w'.server ≠ w.server := fun hs => by simp [hs] at hl
    by_cases hm : ∃ k, m = .take k
    · obtain ⟨k, rfl⟩ := hm
      cases hv : e.taker? k with
      | none =>
        rw [apply_take_of_taker? hv] at hw'
        exact absurd (congrArg Worker.server (Option.some.inj (hw'.symm.trans hw))) hsame
      | some v =>
        obtain ⟨-, hfree⟩ := taker?_eq_some_iff.1 hv
        obtain ⟨hk, -, -⟩ := Scene.taker?_eq_some_iff.1 hfree
        obtain ⟨stamps, htook⟩ := took_of_taker? hv
        by_cases hki : id = k
        · subst hki
          obtain rfl := Option.some.inj (hk.symm.trans hw)
          obtain rfl := Option.some.inj ((htook.worker hk).symm.trans hw')
          have hwhole : v.isTorn = false := by simpa [permits, hv] using hp
          obtain ⟨sent, hlines, hsent⟩ :=
            (Worker.asking_step stamps (h.paced v (List.mem_of_getElem? hk)) hwhole).lines i
          rw [hlines, List.drop_left] at hl
          obtain ⟨q, hq, rfl⟩ := hsent line hl
          exact ⟨v, q, rfl, hv, hq, rfl⟩
        · rw [htook.worker_ne hki] at hw'
          exact absurd (congrArg Worker.server (Option.some.inj (hw'.symm.trans hw))) hsame
    · rcases worker_of_supplied (fun k hk => hm ⟨k, hk⟩) hw' with
        ⟨v, ms, hv, hs, -⟩ | ⟨_, _, _, -, -, hnone⟩
      · obtain rfl := Option.some.inj (hv.symm.trans hw)
        exact absurd hs hsame
      · cases hnone.symm.trans hw
  · cases hl

/-- A new client whose server answers with these lines, one to each request. -/
def scriptedRemote (lines : List String) : Remote where
  client := .new "127.0.0.1:40001" (.ofSeconds 5) ⟨1, 100⟩
  network := {
    hosts := []
    serverPlans := [.accepted (lines.map fun line =>
      ⟨(line ++ "\n").toUTF8.data.toList, .waiting, none⟩)]
    targetPlans := []
    otherTarget := .accepted 1 .ended
    now := .zero
    requests := []
    probes := 0 }
  stamp := default

def sessionLine : String := "\x7b\"ok\":true,\"session\":\"s\"\x7d"

def takenLine : String := "\x7b\"ok\":true\x7d"

def settingsLine (setId resultId host : String) : String :=
  "\x7b\"ok\":true,\"config\":\x7b\"set_id\":" ++ setId ++ ",\"result_id\":" ++ resultId ++
    ",\"throughput_server\":\"" ++ host ++ "\",\"port\":40002\x7d\x7d"

/-- The worker `id` is added, whose server answers with these lines, and its thread is started. -/
def hire (id : Nat) (lines : List String) : List (Move Remote) := [
  .aside (.addWorker (scriptedRemote lines) .anonymous Worker.defaultLimit),
  .aside (.startWorker id)]

/-- The caller `k` starts a run. -/
def launch (k : Nat) : List (Move Remote) := .startTest k :: List.replicate 6 (.proceed k)

/-- The caller `k` acknowledges a record. -/
def dismiss (k : Nat) : List (Move Remote) := .acknowledge k :: List.replicate 2 (.proceed k)

/-- The thread of a worker takes a message and carries out all that comes of it. -/
def turn (id : Nat) : List (Move Remote) := .take id :: List.replicate 15 (.carry id)

/-- What the thread of a worker does with a test that it has made, up to the event that announces
the record. -/
def unveil (id : Nat) : List (Move Remote) := List.replicate 13 (.carry id)

/-- What is left to be done after that: the binding is read, and the record is sent off. -/
def sendOff (id : Nat) : List (Move Remote) := List.replicate 2 (.carry id)

/-- A schedule of permitted moves in which a test is made by one worker, and in the end another
message is taken by the same worker or another. -/
structure Detour where
  earlier : List (Move Remote)
  tester : Nat
  later : List (Move Remote)
  uploader : Nat

namespace Detour

def before (d : Detour) : List (Move Remote) := d.earlier ++ .take d.tester :: d.later

end Detour

/-- A run has completed on one worker, and its numbers are left with its client. -/
def completedElsewhere : List (Move Remote) := List.flatten [
  hire 0 [sessionLine, settingsLine "7" "1" "127.0.0.1", takenLine],
  hire 1 [sessionLine, settingsLine "9" "1" "127.0.0.1", takenLine, takenLine],
  [.aside (.bind 1)], launch 0, turn 1, turn 1, turn 1, dismiss 0, [.aside (.bind 0)]]

/-- Before the thread has sent off a record, another worker is bound. -/
def rebinding : Detour where
  earlier := completedElsewhere ++ launch 0 ++ turn 0
  tester := 0
  later := List.flatten [unveil 0, [.aside (.bind 1)], sendOff 0]
  uploader := 1

end Ensemble
end LinkTest
