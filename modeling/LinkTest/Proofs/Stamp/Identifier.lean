import LinkTest.Uuid

/-!
# Identifiers are read back from their texts

The text of an identifier has its five groups of digits between hyphens, so that neither the bare
form nor a wrapped one is taken for it, and its digits say all of its bits.
-/

namespace LinkTest.Uuid

/-- A digit as it is written: a small letter stands for ten or more. -/
def IsWritten (c : Char) : Prop := ∃ d < 16, c = Nat.digitChar d

theorem IsWritten.of_forall {P : Char → Prop} (h : ∀ d < 16, P (Nat.digitChar d)) {c : Char}
    (hc : IsWritten c) : P c := by
  obtain ⟨d, hd, rfl⟩ := hc
  exact h d hd

theorem isWritten_of_mem_digits {u : Uuid} {c : Char} (h : c ∈ u.digits) : IsWritten c := by
  obtain ⟨i, -, rfl⟩ := List.mem_map.1 h
  exact ⟨_, Nat.mod_lt _ (by decide), rfl⟩

theorem length_digits (u : Uuid) : u.digits.length = 32 := by
  simp [digits]

/-- The first digits say the highest bits. -/
theorem numberIn_digits (n : Nat) (h : n < Nat.pow 16 32) {k : Nat} (hk : k ≤ 32) :
    Text.numberIn 16 ((List.range k).map fun i => Nat.digitChar (n / Nat.pow 16 (31 - i) % 16)) =
      n / Nat.pow 16 (32 - k) := by
  induction k with
  | zero => exact (Nat.div_eq_of_lt h).symm
  | succ k ih =>
    have hdigit : ∀ d < 16, Text.digitValue 16 (Nat.digitChar d) = d := by decide
    have hpow : 32 - k = 31 - k + 1 := by omega
    rw [List.range_succ, List.map_append, List.map_singleton, Text.numberIn_concat, ih (by omega),
      hdigit _ (Nat.mod_lt _ (by decide)), hpow, show 32 - (k + 1) = 31 - k by omega,
      show Nat.pow 16 (31 - k + 1) = Nat.pow 16 (31 - k) * 16 from rfl, ← Nat.div_div_eq_div_mul,
      Nat.div_add_mod]

theorem ofDigits_digits (u : Uuid) : ofDigits u.digits = u := by
  obtain ⟨bits⟩ := u
  have h := numberIn_digits bits.toNat bits.isLt (Nat.le_refl 32)
  rw [Nat.sub_self, show Nat.pow 16 0 = 1 from rfl, Nat.div_one] at h
  rw [ofDigits, digits, h, BitVec.ofNat_toNat, BitVec.setWidth_eq]

theorem flatten_grouped {lengths : List Nat} {ds : List Char}
    (h : ds.length ≤ lengths.foldr (· + ·) 0) : (grouped lengths ds).flatten = ds := by
  induction lengths generalizing ds with
  | nil => exact (List.length_eq_zero_iff.1 (Nat.le_zero.1 h)).symm
  | cons n lengths ih =>
    rw [List.foldr_cons] at h
    rw [grouped, List.flatten_cons, ih (by rw [List.length_drop]; omega), List.take_append_drop]

theorem length_grouped {lengths : List Nat} {ds : List Char}
    (h : lengths.foldr (· + ·) 0 ≤ ds.length) : (grouped lengths ds).map List.length = lengths := by
  induction lengths generalizing ds with
  | nil => rfl
  | cons n lengths ih =>
    rw [List.foldr_cons] at h
    rw [grouped, List.map_cons, ih (by rw [List.length_drop]; omega), List.length_take,
      Nat.min_eq_left (by omega)]

/-- The groups of an identifier's text. -/
def groups (u : Uuid) : List (List Char) := grouped groupLengths u.digits

theorem flatten_groups (u : Uuid) : u.groups.flatten = u.digits :=
  flatten_grouped (Nat.le_of_eq u.length_digits)

theorem isWritten_of_mem_groups {u : Uuid} {g : List Char} {c : Char} (hg : g ∈ u.groups)
    (hc : c ∈ g) : IsWritten c := by
  refine isWritten_of_mem_digits (u := u) ?_
  rw [← flatten_groups]
  exact List.mem_flatten.2 ⟨g, hg, hc⟩

theorem toList_text (u : Uuid) : u.text.toList = ['-'].intercalate u.groups := by
  rw [text, String.toList_intercalate, List.map_map]
  simp [Function.comp_def, groups]

variable (u : Uuid)

theorem not_mem_groups : ∀ g ∈ u.groups, '-' ∉ g := fun _ hg hc =>
  absurd rfl (IsWritten.of_forall (P := (· ≠ '-')) (by decide) (isWritten_of_mem_groups hg hc))

theorem splitGroups_text : splitGroups u.text.toList = u.groups := by
  rw [toList_text]
  exact Text.pieces_intercalate (by simp [groups, groupLengths, grouped]) u.not_mem_groups

theorem isHyphenated_text : isHyphenated u.text.toList = true := by
  have hlen : u.groups.map List.length = groupLengths :=
    length_grouped (by rw [length_digits]; decide)
  rw [isHyphenated, splitGroups_text, hlen, beq_self_eq_true, Bool.true_and, List.all_eq_true,
    toList_text]
  intro c hc
  rcases Text.mem_intercalate hc with rfl | ⟨g, hg, hc⟩
  · decide
  · exact IsWritten.of_forall (P := fun c => (isHex c || c == '-') = true) (by decide)
      (isWritten_of_mem_groups hg hc)

/-- The text begins with a digit. -/
theorem exists_text_cons : ∃ c r, u.text.toList = c :: r ∧ IsWritten c := by
  obtain ⟨c, r, hds⟩ := List.exists_cons_of_length_eq_add_one u.length_digits
  have hc : c ∈ u.digits := by rw [hds]; exact List.mem_cons_self
  have htext : u.text.toList =
      ['-'].intercalate ((c :: r.take 7) :: grouped [4, 4, 4, 12] (r.drop 7)) := by
    rw [toList_text, groups, hds]
    rfl
  rw [grouped, List.intercalate_cons_cons] at htext
  exact ⟨c, _, htext, isWritten_of_mem_digits hc⟩

/-- A text that is neither wrapped nor bare is read group by group. -/
theorem ofText_of_isHyphenated {s : String}
    (hdigits : ¬ (s.toList.length = 32 ∧ s.toList.all isHex = true))
    (hurn : (s.toList.take urnMark.length).map Char.toLower ≠ urnMark)
    (hunwrap : unwrap s.toList = none) (h : isHyphenated s.toList = true) :
    ofText s = .ok (ofDigits (s.toList.filter (· ≠ '-'))) := by
  have hvalue : ∀ o, (if isHyphenated s.toList then
      some (ofDigits (s.toList.filter (· ≠ '-'))) else none) = o →
      o = some (ofDigits (s.toList.filter (· ≠ '-'))) := fun o ho => by rw [← ho, if_pos h]
  rw [ofText]
  dsimp only
  rw [if_neg hdigits, if_neg hurn, hunwrap]
  dsimp only
  split
  · next u hu => rw [Option.some.inj (hvalue _ hu)]
  · next hu => cases hvalue _ hu

theorem urnMark_eq : urnMark = ['u', 'r', 'n', ':', 'u', 'u', 'i', 'd', ':'] := by decide

/-- An identifier is read back from its text. -/
theorem ofText_text : ofText u.text = .ok u := by
  have hgroups := u.splitGroups_text
  have hvalue : u.text.toList.filter (· ≠ '-') = u.digits := by
    rw [toList_text, Text.filter_intercalate u.not_mem_groups, flatten_groups]
  obtain ⟨c, r, hcs, hc⟩ := u.exists_text_cons
  rw [ofText_of_isHyphenated ?_ ?_ ?_ u.isHyphenated_text, hvalue, ofDigits_digits]
  · rintro ⟨-, hall⟩
    have hnot : '-' ∉ u.text.toList := fun hm =>
      absurd (List.all_eq_true.1 hall _ hm) (by decide)
    rw [splitGroups, Text.pieces_of_not_mem hnot] at hgroups
    simpa [groups, groupLengths, grouped] using congrArg List.length hgroups
  · rw [hcs, urnMark_eq]
    intro h
    have hu : c.toLower = 'u' := (List.cons.inj h).1
    exact absurd hu (IsWritten.of_forall (P := (Char.toLower · ≠ 'u')) (by decide) hc)
  · have hbrace := IsWritten.of_forall (P := (· ≠ '\x7b')) (by decide) hc
    have hu := IsWritten.of_forall (P := (· ≠ 'u')) (by decide) hc
    rw [hcs, unwrap, urnMark_eq, if_neg (by simp [hbrace]), if_neg (by simp [hu.symm])]

end LinkTest.Uuid
