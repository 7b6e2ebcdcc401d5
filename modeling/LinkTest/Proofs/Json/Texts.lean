import LinkTest.Json.Reader
import LinkTest.Json.Writer

/-!
# Texts between quotes

Any text is read back from between its quotes, whatever its characters are, and what follows the
closing quote is left.
-/

namespace LinkTest.Json

/-- The characters of a text as they stand between the quotes. -/
def escapedText (cs : List Char) : List Char := cs.flatMap fun c => (escapeChar c).toList

theorem toList_quote (s : String) : (quote s).toList = '"' :: (escapedText s.toList ++ ['"']) := by
  rw [quote, String.toList_append, String.toList_append, String.toList_join, escapedText]
  simp [List.flatMap_map]

theorem hexUnit_four {a b c d : Char} (h : [a, b, c, d].all (Text.isDigitIn 16) = true)
    (r : List Char) : hexUnit (a :: b :: c :: d :: r) = .ok (Text.numberIn 16 [a, b, c, d], r) := by
  have ha := a.utf8Size_pos
  have hb := b.utf8Size_pos
  have hc := c.utf8Size_pos
  have hd := d.utf8Size_pos
  unfold hexUnit
  rw [if_neg (by simp; omega)]
  dsimp only
  rw [if_pos h]

/-- A control character below the blank, from behind its backslash. -/
theorem escaped_control {c : Char} (h : c.toNat < 0x20) (r : List Char) :
    escaped ('u' :: '0' :: '0' :: ((twoHexDigits c.toNat).toList ++ r)) = .ok (c, r) ∧
      skipEscaped ('u' :: '0' :: '0' :: ((twoHexDigits c.toNat).toList ++ r)) = .ok r := by
  have hdigits : ∀ n < 0x20,
      ['0', '0', Nat.digitChar (n / 16), Nat.digitChar (n % 16)].all (Text.isDigitIn 16) = true ∧
      Text.numberIn 16 ['0', '0', Nat.digitChar (n / 16), Nat.digitChar (n % 16)] = n := by
    decide
  obtain ⟨hall, hn⟩ := hdigits c.toNat h
  have hhex := hexUnit_four hall r
  rw [hn] at hhex
  have htwo : (twoHexDigits c.toNat).toList ++ r =
      Nat.digitChar (c.toNat / 16) :: Nat.digitChar (c.toNat % 16) :: r := by
    simp [twoHexDigits]
  have hlow : isLowHalf c.toNat = false := by simp [isLowHalf]; omega
  have hhigh : isHighHalf c.toNat = false := by simp [isHighHalf]; omega
  rw [htwo]
  constructor
  · simp [escaped, hhex, bind, Except.bind, hlow, hhigh, Char.ofNat_toNat]
  · simp [skipEscaped, hhex, Except.map]

/-- A character stands between the quotes as an escape that stands for it, or as itself. -/
theorem escapeChar_cases (c : Char) :
    (∃ cs, (escapeChar c).toList = '\\' :: cs ∧
      ∀ r, escaped (cs ++ r) = .ok (c, r) ∧ skipEscaped (cs ++ r) = .ok r) ∨
    ((escapeChar c).toList = [c] ∧ c ≠ '"' ∧ c ≠ '\\' ∧ ¬ c.toNat < 0x20) := by
  have hshort : ∀ letter x : Char, letter ≠ 'u' → shortEscape? letter = some x → ∀ r,
      escaped ([letter] ++ r) = .ok (x, r) ∧ skipEscaped ([letter] ++ r) = .ok r := by
    intro letter x hu hx r
    simp [escaped, skipEscaped, hu, hx]
  unfold escapeChar
  by_cases hquote : c = '"'
  · rw [if_pos hquote]
    exact .inl ⟨['"'], rfl, hquote ▸ hshort '"' '"' (by decide) rfl⟩
  rw [if_neg hquote]
  by_cases hslash : c = '\\'
  · rw [if_pos hslash]
    exact .inl ⟨['\\'], rfl, hslash ▸ hshort '\\' '\\' (by decide) rfl⟩
  rw [if_neg hslash]
  by_cases hb : c = '\x08'
  · rw [if_pos hb]
    exact .inl ⟨['b'], rfl, hb ▸ hshort 'b' '\x08' (by decide) rfl⟩
  rw [if_neg hb]
  by_cases hf : c = '\x0c'
  · rw [if_pos hf]
    exact .inl ⟨['f'], rfl, hf ▸ hshort 'f' '\x0c' (by decide) rfl⟩
  rw [if_neg hf]
  by_cases hn : c = '\n'
  · rw [if_pos hn]
    exact .inl ⟨['n'], rfl, hn ▸ hshort 'n' '\n' (by decide) rfl⟩
  rw [if_neg hn]
  by_cases hr : c = '\r'
  · rw [if_pos hr]
    exact .inl ⟨['r'], rfl, hr ▸ hshort 'r' '\r' (by decide) rfl⟩
  rw [if_neg hr]
  by_cases ht : c = '\t'
  · rw [if_pos ht]
    exact .inl ⟨['t'], rfl, ht ▸ hshort 't' '\t' (by decide) rfl⟩
  rw [if_neg ht]
  by_cases hlow : c.toNat < 0x20
  · rw [if_pos hlow]
    exact .inl ⟨'u' :: '0' :: '0' :: (twoHexDigits c.toNat).toList, by simp, escaped_control hlow⟩
  · rw [if_neg hlow]
    exact .inr ⟨by simp [Char.toString], hquote, hslash, hlow⟩

variable {fuel : Nat} {r xs after : List Char}

theorem textBody_escapeChar (c : Char) (h : textBody fuel r = .ok (xs, after)) :
    textBody (fuel + 1) ((escapeChar c).toList ++ r) = .ok (c :: xs, after) := by
  rcases escapeChar_cases c with ⟨cs, hcs, he⟩ | ⟨hc, hquote, hslash, hlow⟩
  · rw [hcs]
    simp [textBody, (he r).1, h, bind, Except.bind]
  · rw [hc]
    simp [textBody, hquote, hslash, hlow, h, bind, Except.bind]

theorem skipTextBody_escapeChar (c : Char) (h : skipTextBody fuel r = .ok after) :
    skipTextBody (fuel + 1) ((escapeChar c).toList ++ r) = .ok after := by
  rcases escapeChar_cases c with ⟨cs, hcs, he⟩ | ⟨hc, hquote, hslash, hlow⟩
  · rw [hcs]
    simp [skipTextBody, (he r).2, h, bind, Except.bind]
  · rw [hc]
    simp [skipTextBody, hquote, hslash, hlow, h]

/-- A text is read back up to its closing quote. -/
theorem textBody_escapedText (cs : List Char) (hf : cs.length < fuel) :
    textBody fuel (escapedText cs ++ '"' :: r) = .ok (cs, r) ∧
      skipTextBody fuel (escapedText cs ++ '"' :: r) = .ok r := by
  induction cs generalizing fuel with
  | nil =>
    obtain ⟨fuel, rfl⟩ := Nat.exists_eq_succ_of_ne_zero (Nat.ne_of_gt hf)
    exact ⟨rfl, rfl⟩
  | cons c cs ih =>
    obtain ⟨fuel, rfl⟩ := Nat.exists_eq_succ_of_ne_zero (Nat.ne_of_gt (Nat.zero_lt_of_lt hf))
    obtain ⟨hb, hs⟩ := ih (Nat.lt_of_succ_lt_succ hf)
    rw [escapedText, List.flatMap_cons, List.append_assoc]
    exact ⟨textBody_escapeChar c hb, skipTextBody_escapeChar c hs⟩

theorem length_le_escapedText (cs : List Char) : cs.length ≤ (escapedText cs).length := by
  induction cs with
  | nil => exact Nat.le_refl _
  | cons c cs ih =>
    have hc : 0 < (escapeChar c).toList.length := by
      rcases escapeChar_cases c with ⟨cs, hcs, -⟩ | ⟨hc, -⟩
      · simp [hcs]
      · simp [hc]
    rw [escapedText, List.flatMap_cons, List.length_append, List.length_cons]
    have := ih
    rw [escapedText] at this
    omega

/-- A text whose opening quote was taken is read, and what follows is left. -/
theorem textToken_escapedText (s : String) (r : List Char) :
    textToken (escapedText s.toList ++ '"' :: r) = ⟨.ok s, .ok r⟩ := by
  have hf : s.toList.length < (escapedText s.toList ++ '"' :: r).length := by
    have := length_le_escapedText s.toList
    simp only [List.length_append, List.length_cons]
    omega
  obtain ⟨hb, hs⟩ := textBody_escapedText s.toList hf
  rw [textToken, hb, hs]
  simp [Except.map]

end LinkTest.Json
