import LinkTest.Proofs.Station.Likeness

/-!
# Targets that are abandoned

A schedule in which targets are dropped is compared with the same schedule in which they are not.
Whenever they are dropped, nothing else is different: what workers do and are told, what becomes of
runs, what is published and what other targets receive. A target that was dropped keeps what it had
received by then, and the log tells of each reply that was discarded.
-/

namespace LinkTest

/-- The line that tells of a reply that nobody wanted. -/
def discardLine : String :=
  Log.line .debug Worker.threadName "Worker: reply target gone, discarding reply"

namespace Log

/-- What is logged besides the replies that were discarded. -/
def besidesDiscards (l : Log) : List String := l.lines.filter (· ≠ discardLine)

/-- The logs have the same level, and say the same of all but discarded replies. -/
def SameBesidesDiscards (l l' : Log) : Prop :=
  l.level = l'.level ∧ l.besidesDiscards = l'.besidesDiscards

theorem SameBesidesDiscards.add {l l' : Log} (h : SameBesidesDiscards l l') (n : Note) :
    SameBesidesDiscards (l.add n) (l'.add n) := by
  obtain ⟨hlevel, hlines⟩ := h
  unfold besidesDiscards at hlines
  unfold Log.add Log.write
  rw [← hlevel]
  split
  · exact ⟨rfl, by simp only [besidesDiscards, List.filter_append, hlines]⟩
  · exact ⟨hlevel, hlines⟩

/-- One more reply was discarded. -/
theorem SameBesidesDiscards.discard {l l' : Log} (h : SameBesidesDiscards l l') :
    SameBesidesDiscards
      (l.add ⟨.debug, Worker.threadName, "Worker: reply target gone, discarding reply"⟩) l' := by
  obtain ⟨hlevel, hlines⟩ := h
  unfold Log.add Log.write
  split
  · refine ⟨hlevel, ?_⟩
    have hdiscard : [discardLine].filter (· ≠ discardLine) = [] := by simp
    rw [← hlines]
    unfold besidesDiscards
    rw [List.filter_append]
    exact (congrArg (_ ++ ·) hdiscard).trans (List.append_nil _)
  · exact ⟨hlevel, hlines⟩

end Log

namespace Target

/-- The target `t` was left when it was `v`, and would be `u` by now. -/
structure LeftAs (v t u : Target) : Prop where
  left : t = { v with wanted := false }
  kind : u.kind = v.kind
  received : v.received <+: u.received

/-- Nothing is different for a target, or it was left as one that was in order. -/
def Departs (was : Target → Prop) (t u : Option Target) : Prop :=
  t = u ∨ ∃ v t' u', t = some t' ∧ u = some u' ∧ was v ∧ LeftAs v t' u'

theorem Departs.mono {was was' : Target → Prop} {t u : Option Target} (h : Departs was t u)
    (hwas : ∀ v, was v → was' v) : Departs was' t u := by
  rcases h with h | ⟨v, t', u', ht, hu, hv, hleft⟩
  · exact .inl h
  · exact .inr ⟨v, t', u', ht, hu, hwas v hv, hleft⟩

/-- What is done to targets, and neither makes one wanted again nor takes replies back, makes no
difference. -/
theorem Departs.map {was : Target → Prop} {t u : Option Target} (h : Departs was t u)
    {f : Target → Target} (hleft : ∀ v : Target, f { v with wanted := false } =
      { v with wanted := false })
    (hkind : ∀ u, (f u).kind = u.kind) (hreceived : ∀ u, u.received <+: (f u).received) :
    Departs was (t.map f) (u.map f) := by
  rcases h with rfl | ⟨v, t', u', rfl, rfl, hv, rfl, hk, hr⟩
  · exact .inl rfl
  · refine .inr ⟨v, _, f u', rfl, rfl, hv, hleft v, (hkind u').trans hk, ?_⟩
    exact hr.trans (hreceived u')

end Target

namespace Station

variable {σ : Type}

theorem getElem?_dropTarget (s : Station σ) (id i : Nat) :
    (s.dropTarget id).targets[i]? = (s.targets[i]?).map fun t =>
      if id = i ∧ t.kind = .channel then { t with wanted := false } else t := by
  rw [dropTarget, List.getElem?_modify]
  by_cases hid : id = i <;> simp [hid]

theorem getElem?_deposit (s : Station σ) (id i : Nat) (reply : Reply) :
    (s.deposit id reply).targets[i]? = (s.targets[i]?).map fun t =>
      if id = i ∧ t.wanted then { t with received := t.received ++ [reply] } else t := by
  by_cases hw : (s.targets[id]?).any Target.wanted = true
  · rw [deposit, if_pos hw]
    dsimp only
    rw [List.getElem?_modify]
    by_cases hid : id = i
    · subst hid
      cases ht : s.targets[id]? with
      | none => rfl
      | some t =>
        have hwanted : t.wanted = true := by simpa [ht] using hw
        simp [hwanted]
    · simp [hid]
  · rw [deposit, if_neg hw]
    change s.targets[i]? = _
    cases ht : s.targets[i]? with
    | none => rfl
    | some t =>
      have hgone : ¬(id = i ∧ t.wanted = true) := by
        rintro ⟨rfl, hwanted⟩
        exact hw (by simp [ht, hwanted])
      rw [Option.map_some, if_neg hgone]

theorem length_dropTarget (s : Station σ) (id : Nat) :
    (s.dropTarget id).targets.length = s.targets.length := List.length_modify _ _ _

theorem length_deposit (s : Station σ) (id : Nat) (reply : Reply) :
    (s.deposit id reply).targets.length = s.targets.length := by
  unfold deposit
  split
  · exact List.length_modify _ _ _
  · rfl

end Station

/-- Some targets were left, each as one that was in order, and the log tells of what was discarded.
Everything else is the same. -/
def Likeness.departure {σ : Type} (was : Nat → Target → Prop) : Likeness σ where
  worker := Eq
  message := Eq
  targets ts us := ts.length = us.length ∧ ∀ i, Target.Departs (was i) ts[i]? us[i]?
  log := Log.SameBesidesDiscards
  worker_refl _ := rfl
  message_refl _ := rfl
  kind_eq h := congrArg Message.kind h
  standing_eq h := congrArg Worker.standing h
  length_eq h := congrArg (fun w : Worker σ => w.queue.length) h
  stand h f := congrArg (Worker.stand · f) h
  post h hm := congrArg₂ Worker.post h hm
  note h n := h.add n
  setLevel h _ := ⟨rfl, h.2⟩
  addTarget {ts us} h := by
    refine ⟨h.1, fun t => ⟨by simp [h.1], fun i => ?_⟩⟩
    rw [List.getElem?_append, List.getElem?_append, h.1]
    split
    · exact h.2 i
    · exact .inl rfl
  dropTarget {s t} h id := by
    refine ⟨by rw [Station.length_dropTarget, Station.length_dropTarget, h.1], fun i => ?_⟩
    rw [Station.getElem?_dropTarget, Station.getElem?_dropTarget]
    refine (h.2 i).map (fun v => ?_) (fun u => ?_) (fun u => ?_)
    · exact ite_self _
    · split <;> rfl
    · split <;> exact List.prefix_refl _
  deposit {s t} h hl id reply := by
    refine ⟨⟨by rw [Station.length_deposit, Station.length_deposit, h.1], fun i => ?_⟩, ?_⟩
    · rw [Station.getElem?_deposit, Station.getElem?_deposit]
      refine (h.2 i).map (fun v => ?_) (fun u => ?_) (fun u => ?_)
      · exact if_neg (by simp)
      · split <;> rfl
      · split
        · exact List.prefix_append _ _
        · exact List.prefix_refl _
    · unfold Station.deposit
      rcases h.2 id with heq | ⟨v, t', u', ht, hu, -, hleft⟩
      · rw [heq]
        split
        · exact hl
        · exact hl.add _
      · -- The one that was left is told of here, and possibly so is the other.
        have hgone : (s.targets[id]?).any Target.wanted = false := by simp [ht, hleft.left]
        rw [hgone]
        split
        · contradiction
        · split
          · exact hl.discard
          · exact hl.add _

namespace Station

variable {σ : Type} {was was' : Nat → Target → Prop}

theorem alike_departure_refl (s : Station σ) : s.Alike (.departure was) s :=
  .intro (List.forall₂_same.2 fun _ _ => rfl) ⟨rfl, fun _ => .inl rfl⟩ ⟨rfl, rfl⟩

theorem Alike.departure_mono {s t : Station σ} (h : s.Alike (.departure was) t)
    (hwas : ∀ i v, was i v → was' i v) : s.Alike (.departure was') t := by
  cases h with
  | intro hw ht hl => exact .intro hw ⟨ht.1, fun i => (ht.2 i).mono (hwas i)⟩ hl

theorem Alike.departure_cases {s t : Station σ} (h : s.Alike (.departure was) t) :
    s = { t with targets := s.targets, log := s.log } ∧
      (∀ i, Target.Departs (was i) s.targets[i]? t.targets[i]?) ∧
      Log.SameBesidesDiscards s.log t.log := by
  cases h with
  | intro hw ht hl =>
    obtain rfl := List.forall₂_eq_eq_eq ▸ hw
    exact ⟨rfl, ht.2, hl⟩

/-- Someone leaves a target. -/
theorem Alike.leave {s t : Station σ} (h : s.Alike (.departure was) t) {id : Nat}
    (hwas : ∀ v, s.targets[id]? = some v → t.targets[id]? = some v → was id v) :
    (s.dropTarget id).Alike (.departure was) t := by
  cases h with
  | @intro ws us l hw ht hl =>
    refine .intro (s := s.dropTarget id) hw ⟨?_, fun i => ?_⟩ hl
    · exact (s.length_dropTarget id).trans ht.1
    · rw [getElem?_dropTarget]
      rcases ht.2 i with heq | ⟨v, t', u', hv, hu, hwas', rfl, hk, hr⟩
      · cases hv : s.targets[i]? with
        | none => exact .inl (heq ▸ hv.symm)
        | some v =>
          have hu : us[i]? = some v := heq ▸ hv
          by_cases hd : id = i ∧ v.kind = .channel
          · obtain ⟨rfl, hchannel⟩ := hd
            refine .inr ⟨v, _, v, rfl, hu, hwas v hv hu, ?_, rfl, List.prefix_refl _⟩
            exact if_pos ⟨rfl, hchannel⟩
          · exact .inl (by rw [Option.map_some, if_neg hd, hu])
      · refine .inr ⟨v, _, u', by rw [hv]; rfl, hu, hwas', ?_, hk, hr⟩
        exact ite_self _

end Station

namespace Scene

variable {σ : Type}

/-- Whether a deed drops one of the targets in question. -/
def Deed.drops (abandoned : Nat → Bool) : Deed σ → Bool
  | .move (.dropTarget id) => abandoned id
  | _ => false

theorem Deed.eq_of_drops {abandoned : Nat → Bool} {a : Deed σ} (h : a.drops abandoned = true) :
    ∃ id, a = .move (.dropTarget id) ∧ abandoned id = true := by
  unfold Deed.drops at h
  split at h
  · exact ⟨_, rfl, h⟩
  · cases h

/-- The schedule in which the targets are not dropped. -/
def undropped (abandoned : Nat → Bool) (as : List (Deed σ)) : List (Deed σ) :=
  as.filter fun a => !a.drops abandoned

variable [Server σ]

/-- The target `v` was dropped in the course of the schedule, and up to then it had received as much
as if it were not. -/
def LeftDuring (c : Scene σ) (abandoned : Nat → Bool) (as : List (Deed σ)) (id : Nat)
    (v : Target) : Prop :=
  abandoned id = true ∧ ∃ before after, as = before ++ .move (.dropTarget id) :: after ∧
    (c.actAll before).station.targets[id]? = some v ∧
      (c.actAll (undropped abandoned before)).station.targets[id]? = some v

theorem LeftDuring.append {c : Scene σ} {abandoned : Nat → Bool} {as : List (Deed σ)} {id : Nat}
    {v : Target} (h : c.LeftDuring abandoned as id v) (a : Deed σ) :
    c.LeftDuring abandoned (as ++ [a]) id v := by
  obtain ⟨hid, before, after, rfl, hs, ht⟩ := h
  exact ⟨hid, before, after ++ [a], by simp, hs, ht⟩

/-- The scenes after the schedule and after the one in which the targets are not dropped are the
same but for those targets. -/
theorem alike_undropped (c : Scene σ) (abandoned : Nat → Bool) (as : List (Deed σ)) :
    (c.actAll as).Alike (.departure (c.LeftDuring abandoned as))
        (c.actAll (undropped abandoned as)) ∧
      (c.transcript as).filter (fun entry => !entry.1.drops abandoned) =
        c.transcript (undropped abandoned as) := by
  induction as using List.reverseRecOn with
  | nil => exact ⟨⟨Station.alike_departure_refl c.station, rfl, rfl⟩, rfl⟩
  | append_singleton as a ih =>
    obtain ⟨⟨hstation, hpending, hreceived⟩, htranscript⟩ := ih
    have hwas := hstation.departure_mono fun i v h => LeftDuring.append h a
    rw [actAll_append, actAll_cons, actAll_nil, transcript_append, List.filter_append,
      htranscript]
    cases hd : a.drops abandoned with
    | false =>
      have hrest : undropped abandoned (as ++ [a]) = undropped abandoned as ++ [a] := by
        simp [undropped, hd]
      have hsame : Agree _ (c.actAll as) (c.actAll (undropped abandoned as)) a a :=
        Alike.act ⟨hwas, hpending, hreceived⟩ (.same a) fun id _ w w' stamps _ _ _ _ hw => by
          obtain rfl : w = w' := hw
          exact ⟨rfl, rfl⟩
      rw [hrest, actAll_append, actAll_cons, actAll_nil, transcript_append]
      exact ⟨hsame.alike, by simp [transcript, hd, hsame.answer]⟩
    | true =>
      have hrest : undropped abandoned (as ++ [a]) = undropped abandoned as := by
        simp [undropped, hd]
      rw [hrest]
      refine ⟨?_, by simp [transcript, hd]⟩
      obtain ⟨id, rfl, hid⟩ := Deed.eq_of_drops hd
      refine ⟨hwas.leave fun v hv hu => ?_, hpending, hreceived⟩
      exact ⟨hid, as, [], rfl, hv, hu⟩

/-- What a schedule in which targets are dropped leaves as it is without the drops. -/
structure Unimpeded (c : Scene σ) (abandoned : Nat → Bool) (as : List (Deed σ)) : Prop where
  /-- Everything is the same but for the targets and the log. -/
  station : (c.actAll as).station = { (c.actAll (undropped abandoned as)).station with
    targets := (c.actAll as).station.targets
    log := (c.actAll as).station.log }
  pending : (c.actAll as).pending = (c.actAll (undropped abandoned as)).pending
  received : (c.actAll as).received = (c.actAll (undropped abandoned as)).received
  /-- All others have had the same answers all along. -/
  answers : (c.transcript as).filter (fun entry => !entry.1.drops abandoned) =
    c.transcript (undropped abandoned as)
  log : Log.SameBesidesDiscards (c.actAll as).station.log
    (c.actAll (undropped abandoned as)).station.log
  /-- All other targets have received the same. -/
  others : ∀ id, abandoned id = false → (c.actAll as).station.targets[id]? =
    (c.actAll (undropped abandoned as)).station.targets[id]?
  /-- A target that was dropped has received what it had received by then. -/
  left : ∀ id, Target.Departs (c.LeftDuring abandoned as id) (c.actAll as).station.targets[id]?
    (c.actAll (undropped abandoned as)).station.targets[id]?

/-- Dropping targets, whenever it is done, makes no difference to anything else. -/
theorem unimpeded_of_drops (c : Scene σ) (abandoned : Nat → Bool) (as : List (Deed σ)) :
    c.Unimpeded abandoned as := by
  obtain ⟨⟨hstation, hpending, hreceived⟩, hanswers⟩ := alike_undropped c abandoned as
  obtain ⟨hframe, htargets, hlog⟩ := hstation.departure_cases
  refine ⟨hframe, hpending, hreceived, hanswers, hlog, fun id hid => ?_, htargets⟩
  rcases htargets id with heq | ⟨v, -, -, -, -, hwas, -⟩
  · exact heq
  · exact absurd hwas.1 (by simp [hid])

end Scene
end LinkTest
