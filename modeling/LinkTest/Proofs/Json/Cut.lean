import LinkTest.Proofs.Json.Passages

/-!
# Texts that break off

Where nothing is left of a text, what was read of it shows that it has broken off, and cannot be
passed over.
-/

namespace LinkTest.Json

variable {fuel : Nat} {cs : List Char} {d : Datum}

/-! ## Data that are cut -/

/-- The text has broken off in the datum. -/
inductive Cut : Datum → Prop
  | damaged (f g : Fault) : Cut (.damaged f (some g))
  | list (items : List Datum) (f g : Fault) : Cut (.list items (.broken f (some g)))
  | dict (members : List (String × Datum)) (f g : Fault) : Cut (.dict members (.broken f (some g)))
  | item (items : List Datum) {d : Datum} (h : Cut d) : Cut (.list (items ++ [d]) .strict)
  | member (members : List (String × Datum)) (k : String) {d : Datum} (h : Cut d) :
    Cut (.dict (members ++ [(k, d)]) .strict)

theorem Cut.cons_item {items : List Datum} {e : Ending} (h : Cut (.list items e)) (d : Datum) :
    Cut (.list (d :: items) e) := by
  cases h with
  | list _ f g => exact .list _ f g
  | item items h => exact .item (d :: items) h

theorem Cut.cons_member {members : List (String × Datum)} {e : Ending}
    (h : Cut (.dict members e)) (m : String × Datum) : Cut (.dict (m :: members) e) := by
  cases h with
  | dict _ f g => exact .dict _ f g
  | member members k h => exact .member (m :: members) k h

theorem skipFaultItems_append (items : List Datum) (d : Datum) :
    Datum.skipFaultItems (items ++ [d]) = (Datum.skipFaultItems items).or d.skipFault := by
  induction items with
  | nil => simp [Datum.skipFaultItems]
  | cons d' items ih => simp [Datum.skipFaultItems, ih, Option.or_assoc]

theorem skipFaultMembers_append (members : List (String × Datum)) (k : String) (d : Datum) :
    Datum.skipFaultMembers (members ++ [(k, d)]) =
      (Datum.skipFaultMembers members).or d.skipFault := by
  induction members with
  | nil => simp [Datum.skipFaultMembers]
  | cons m members ih => simp [Datum.skipFaultMembers, ih, Option.or_assoc]

/-- It cannot be passed over. -/
theorem Cut.isSome_skipFault (h : Cut d) : d.skipFault.isSome = true := by
  induction h with
  | damaged f g => rfl
  | list items f g => simp [Datum.skipFault, Ending.skipFault]
  | dict members f g => simp [Datum.skipFault, Ending.skipFault]
  | item items h ih => simp [Datum.skipFault, skipFaultItems_append, ih]
  | member members k h ih => simp [Datum.skipFault, skipFaultMembers_append, ih]

/-- Where nothing is left of the text, what was read is cut. -/
structure CutAt (fuel : Nat) : Prop where
  value : ∀ cs, (value fuel cs).2 = none → Cut (value fuel cs).1
  items : ∀ first cs, (items fuel first cs).2.2 = none →
    Cut (.list (items fuel first cs).1 (items fuel first cs).2.1)
  itemThen : ∀ cs, (itemThen fuel cs).2.2 = none →
    Cut (.list (itemThen fuel cs).1 (itemThen fuel cs).2.1)
  members : ∀ first cs, (members fuel first cs).2.2 = none →
    Cut (.dict (members fuel first cs).1 (members fuel first cs).2.1)
  memberThen : ∀ cs, (memberThen fuel cs).2.2 = none →
    Cut (.dict (memberThen fuel cs).1 (memberThen fuel cs).2.1)

theorem cutAt_zero : CutAt 0 where
  value _ _ := .damaged _ _
  items _ _ _ := .list _ _ _
  itemThen _ _ := .list _ _ _
  members _ _ _ := .dict _ _ _
  memberThen _ _ := .dict _ _ _

theorem cut_of_text (cs : List Char) : (text cs).2 = none → Cut (text cs).1 := by
  unfold text
  dsimp only
  split
  · nofun
  · nofun
  · exact fun _ => .damaged _ _
  · exact fun _ => .damaged _ _

theorem cut_of_number (cs : List Char) : (number cs).2 = none → Cut (number cs).1 := by
  unfold number
  split
  · exact fun _ => .damaged _ _
  · split <;> nofun

theorem cut_of_word (d : Datum) (es cs : List Char) :
    (word d es cs).2 = none → Cut (word d es cs).1 := by
  induction es generalizing cs with
  | nil => nofun
  | cons e es ih =>
    cases cs with
    | nil => exact fun _ => .damaged _ _
    | cons c cs =>
      unfold word
      split
      · exact ih cs
      · exact fun _ => .damaged _ _

theorem cut_of_colonThen (h : CutAt fuel) (cs : List Char) :
    (colonThen fuel cs).2 = none → Cut (colonThen fuel cs).1 := by
  unfold colonThen
  split
  · exact fun _ => .damaged _ _
  · split
    · exact h.value _
    · exact fun _ => .damaged _ _

/-- Whatever the key is, it leaves a fault of what stands behind it. -/
theorem cut_withKey_of_value (said : Except Fault String) (h : Cut d) :
    Cut (.dict (withKey said d [] .strict).1 (withKey said d [] .strict).2) := by
  cases said with
  | ok k => exact .member [] k h
  | error f =>
    obtain ⟨g, hg⟩ := Option.isSome_iff_exists.1 h.isSome_skipFault
    rw [withKey, hg]
    exact .dict _ _ _

theorem cut_withKey_of_members (said : Except Fault String) (d : Datum)
    {ms : List (String × Datum)} {e : Ending} (h : Cut (.dict ms e)) :
    Cut (.dict (withKey said d ms e).1 (withKey said d ms e).2) := by
  cases said with
  | ok k => exact h.cons_member (k, d)
  | error f =>
    have hsome : ((d.skipFault.or (Datum.skipFaultMembers ms)).or e.skipFault).isSome = true := by
      have := h.isSome_skipFault
      rw [Datum.skipFault] at this
      rw [Option.or_assoc, Option.isSome_or, this, Bool.or_true]
    obtain ⟨g, hg⟩ := Option.isSome_iff_exists.1 hsome
    rw [withKey, hg]
    exact .dict _ _ _

theorem cutAt_succ (h : CutAt fuel) : CutAt (fuel + 1) where
  value cs := by
    have hformed := formed_value fuel cs
    generalize Json.value (fuel + 1) cs = read at hformed ⊢
    cases hformed with
    | damaged f => exact fun _ => .damaged _ _
    | list r => exact h.items true r
    | dict r => exact h.members true r
    | text r => exact cut_of_text r
    | number r => exact cut_of_number r
    | null r => exact cut_of_word _ _ r
    | boolean b letters r => exact cut_of_word _ _ r
  items first cs := by
    rcases items_cases fuel first cs with ⟨f, g, hbroken⟩ | ⟨r, hclose⟩ | ⟨next, hnext⟩
    · rw [hbroken]
      exact fun _ => .list _ _ _
    · rw [items_closed hclose]
      exact nofun
    · rw [items_of_leads hnext]
      exact h.itemThen next
  itemThen cs := by
    unfold Json.itemThen
    have hv := h.value cs
    dsimp only
    split
    · next hrest => exact fun _ => .item [] (hv hrest)
    · exact fun hrest => (h.items false _ hrest).cons_item _
  members first cs := by
    rcases members_cases fuel first cs with ⟨f, g, hbroken⟩ | ⟨r, hclose⟩ | ⟨next, hnext⟩
    · rw [hbroken]
      exact fun _ => .dict _ _ _
    · rw [members_closed hclose]
      exact nofun
    · rw [members_of_leads hnext]
      exact h.memberThen next
  memberThen cs := by
    rcases memberThen_cases fuel cs with ⟨f, g, hbroken⟩ | ⟨said, rest, hkey⟩
    · rw [hbroken]
      exact fun _ => .dict _ _ _
    · rw [memberThen_of_key hkey]
      have hcolon := cut_of_colonThen h rest
      cases hleft : (colonThen fuel rest).2 with
      | none => exact fun _ => cut_withKey_of_value said (hcolon hleft)
      | some r => exact fun hrest => cut_withKey_of_members said _ (h.members false r hrest)

theorem cutAt (fuel : Nat) : CutAt fuel := by
  induction fuel with
  | zero => exact cutAt_zero
  | succ fuel ih => exact cutAt_succ ih

end LinkTest.Json
