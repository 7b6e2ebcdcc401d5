import LinkTest.Proofs.Station.Publishing

/-!
# Where messages come from

Where no message is taken every server stays as it is. Messages come to the ends of queues, and in a
move that drives no run each of them comes from someone who has a handle of the worker or owns it.
-/

namespace LinkTest

theorem Message.run?_of_forRun? {x : Message} (h : x.forRun? = none) : x.run? = none := by
  cases x with
  | requestTest t =>
    cases t with
    | target id kind => rfl
    | run run => cases h
  | _ => rfl

variable {σ : Type}

/-- What becomes of workers where no message is taken: another one may come, and messages may be sent
to one of them. -/
inductive Supplied (ws : List (Worker σ)) (hires : Worker σ → Prop) (sends : Nat → Message → Prop) :
    List (Worker σ) → Prop
  | same : Supplied ws hires sends ws
  | hired {w : Worker σ} (h : hires w) : Supplied ws hires sends (ws ++ [w])
  | sent {id : Nat} {w w' : Worker σ} {ms : List Message} (hw : ws[id]? = some w)
    (hs : w'.server = w.server) (hq : w'.queue = w.queue ++ ms) (hx : ∀ x ∈ ms, sends id x) :
    Supplied ws hires sends (ws.set id w')

namespace Supplied

variable {ws ws' : List (Worker σ)} {hires hires' : Worker σ → Prop}
  {sends sends' : Nat → Message → Prop} {id : Nat} {w w' : Worker σ}

theorem mono (h : Supplied ws hires sends ws') (hh : ∀ w, hires w → hires' w)
    (hs : ∀ id x, sends id x → sends' id x) : Supplied ws hires' sends' ws' := by
  cases h with
  | same => exact .same
  | hired h => exact .hired (hh _ h)
  | sent hw hserver hq hx => exact .sent hw hserver hq fun x hmem => hs _ x (hx x hmem)

/-- A worker that is there was there before, or it has just come. -/
theorem of_getElem? (h : Supplied ws hires sends ws') (hw' : ws'[id]? = some w') :
    (∃ w ms, ws[id]? = some w ∧ w'.server = w.server ∧ w'.queue = w.queue ++ ms ∧
      ∀ x ∈ ms, sends id x) ∨ hires w' ∧ ws[id]? = none := by
  cases h with
  | same => exact .inl ⟨w', [], hw', rfl, by simp, by simp⟩
  | hired h =>
    by_cases hid : id < ws.length
    · rw [List.getElem?_append_left hid] at hw'
      exact .inl ⟨w', [], hw', rfl, by simp, by simp⟩
    · rw [List.getElem?_append_right (Nat.le_of_not_lt hid)] at hw'
      obtain rfl := List.mem_singleton.1 (List.mem_of_getElem? hw')
      exact .inr ⟨h, List.getElem?_eq_none (Nat.le_of_not_lt hid)⟩
  | @sent k w w'' ms hw hserver hq hx =>
    by_cases hk : k = id
    · subst hk
      rw [List.getElem?_set_self (List.getElem?_eq_some_iff.1 hw).1] at hw'
      obtain rfl := Option.some.inj hw'
      exact .inl ⟨w, ms, hw, hserver, hq, hx⟩
    · rw [List.getElem?_set_ne hk] at hw'
      exact .inl ⟨w', [], hw', rfl, by simp, by simp⟩

/-- A change of one worker that concerns neither its server nor its queue. -/
theorem of_frame (hw : ws[id]? = some w) (hs : w'.server = w.server) (hq : w'.queue = w.queue) :
    Supplied ws hires sends (ws.set id w') :=
  .sent hw hs (hq.trans (List.append_nil _).symm) (by simp)

theorem of_farewell (hw : ws[id]? = some w) (h : ∃ owner running,
    w' = { w with owner := owner, running := running, queue := w.queue ++ w.farewell })
    (hx : sends id .quit) : Supplied ws hires sends (ws.set id w') := by
  obtain ⟨owner, running, rfl⟩ := h
  refine .sent hw rfl rfl fun x hmem => ?_
  unfold Worker.farewell at hmem
  split at hmem
  · exact List.mem_singleton.1 hmem ▸ hx
  · cases hmem

section

variable {s : Station σ}

theorem of_send (thread : String) {x : Message} (hx : sends id x) :
    Supplied s.workers hires sends (s.send thread id x).2.workers := by
  rcases s.open_or_closed id with ⟨w, hw, ho⟩ | hc
  · obtain ⟨log, h⟩ := Station.send_of_open thread x hw ho
    rw [h]
    exact .sent hw rfl rfl (by simpa using hx)
  · obtain ⟨log, h⟩ := Station.send_of_closed thread x hc
    rw [h]
    exact .same

theorem of_startWorker (s : Station σ) (id : Nat) :
    Supplied s.workers hires sends (s.startWorker id).2.workers := by
  unfold Station.startWorker Worker.start
  split
  · exact .same
  · next w hw =>
    by_cases hu : w.thread = .unstarted
    · simp only [hu, if_true]
      exact .of_frame hw rfl rfl
    · simp only [hu, if_false]
      exact .same

theorem of_stopWorker (hx : sends id .quit) :
    Supplied s.workers hires sends (s.stopWorker id).workers := by
  unfold Station.stopWorker
  split
  · exact .same
  · next w hw => exact .of_farewell hw w.stop_fst hx

theorem of_dropWorker (hx : sends id .quit) :
    Supplied s.workers hires sends (s.dropWorker id).workers := by
  unfold Station.dropWorker
  split
  · exact .same
  · next w hw => exact .of_farewell hw w.drop_eq hx

theorem of_hold (s : Station σ) (id : Nat) :
    Supplied s.workers hires sends (s.hold id).2.workers := by
  unfold Station.hold
  split
  · exact .same
  · next w hw =>
    split
    · exact .of_frame hw rfl rfl
    · exact .same

theorem of_resume (s : Station σ) (id : Nat) :
    Supplied s.workers hires sends (s.resume id).workers := by
  simp only [Station.resume, List.modify_eq_set_getElem?]
  cases hw : s.workers[id]? with
  | none => exact .same
  | some w => exact .of_frame hw rfl rfl

end

end Supplied

namespace Scene

/-- The message that someone who has a handle of a worker or owns it sends to it in a move. -/
def Move.message? : Move σ → Option (Nat × Message)
  | .stopWorker id | .dropWorker id => some (id, .quit)
  | .login id credentials => some (id, .login credentials)
  | .requestTest id target kind => some (id, .requestTest (.target target kind))
  | .report id r t => some (id, .report r (t.map fun (i, k) => .target i k))
  | _ => none

theorem forRun?_of_message? {m : Move σ} {id : Nat} {x : Message}
    (h : m.message? = some (id, x)) : x.forRun? = none := by
  cases m with
  | stopWorker k => cases h; rfl
  | dropWorker k => cases h; rfl
  | login k credentials => cases h; rfl
  | requestTest k target kind => cases h; rfl
  | report k r t => cases t <;> cases h <;> rfl
  | _ => cases h

/-- Whether a worker is added in a move, and is this one. -/
def Move.Hires (m : Move σ) (w : Worker σ) : Prop :=
  ∃ server own limit, m = .addWorker server own limit ∧ w = .new server own limit

/-- In a move that drives no run messages come from outside only. -/
theorem supplied_of_not_driving [Server σ] {m : Move σ} (hm : m.isDriving = false) (c : Scene σ) :
    Supplied c.station.workers m.Hires (fun id x => m.message? = some (id, x))
      (c.apply m).station.workers := by
  cases m with
  | addWorker server own limit => exact .hired ⟨server, own, limit, rfl, rfl⟩
  | startWorker id => exact .of_startWorker c.station id
  | stopWorker id => exact .of_stopWorker rfl
  | dropWorker id => exact .of_dropWorker rfl
  | hold id => exact .of_hold c.station id
  | resume id => exact .of_resume c.station id
  | login id credentials => exact .of_send _ rfl
  | requestTest id target kind => exact .of_send _ rfl
  | report id r t => exact .of_send _ rfl
  | addTarget kind => exact .same
  | dropTarget id => exact .same
  | bind id => exact .same
  | clearLatest => exact .same
  | setLevel level => exact .same
  | subscribe kinds => exact .same
  | unsubscribe id => exact .same
  | letGo id => exact .same
  | receive id => exact .same
  | drain id => exact .same
  | startTest => cases hm
  | acknowledge => cases hm
  | take id => cases hm
  | carry id => cases hm

end Scene
end LinkTest
