import LinkTest.Toml.Writer

/-!
# Texts in their four forms

Any text is read back from the form that it is written in, whatever its characters are, and what
follows the closing quotes is left. Rows of quotes need care: up to two of them may stand in a long
text as they are, and may also stand right before the three that close it.
-/

namespace LinkTest.Toml

/-! ## Single characters -/

theorem newline?_of_isShown {c : Char} (h : isShown c = true) (r : List Char) :
    newline? (c :: r) = none := by
  have hn : c ≠ '\n' := by rintro rfl; cases h
  have hr : c ≠ '\r' := by rintro rfl; cases h
  unfold newline?
  split
  · next heq => exact absurd (List.cons.inj heq).1 hn
  · next heq => exact absurd (List.cons.inj heq).1 hr
  · rfl

theorem isShown_of_ge {c : Char} (h : ¬(c.toNat < 0x20 ∨ c = '\x7f')) : isShown c = true := by
  have hdel : c.toNat ≠ 0x7f := fun hc => h (.inr (Char.toNat_inj.1 hc))
  simp only [isShown, Bool.or_eq_true, Bool.and_eq_true, decide_eq_true_eq]
  omega

theorem isShown_of_not_isControl {c : Char} (h : isControl c = false) (hn : c ≠ '\n') :
    isShown c = true := by
  by_cases ht : c = '\t'
  · simp [isShown, ht]
  · refine isShown_of_ge ?_
    rintro (hlow | rfl)
    · simp [isControl, hlow, ht, hn] at h
    · cases h

/-- A control character, from behind its backslash. -/
theorem escaped_unicode {c : Char} (h : c.toNat < 0x80) (r : List Char) :
    escaped ('u' :: '0' :: '0' :: hexDigit (c.toNat / 16) :: hexDigit (c.toNat % 16) :: r) =
      some (c, r) := by
  have hdigits : ∀ n < 0x80,
      ['0', '0', hexDigit (n / 16), hexDigit (n % 16)].all (Text.isDigitIn 16) = true ∧
      Text.numberIn 16 ['0', '0', hexDigit (n / 16), hexDigit (n % 16)] = n := by
    decide +kernel
  obtain ⟨hall, hn⟩ := hdigits c.toNat h
  have hvalid : c.toNat.isValidChar := .inl (by omega)
  have hhex : hexNumber 4 ('0' :: '0' :: hexDigit (c.toNat / 16) :: hexDigit (c.toNat % 16) :: r) =
      some (c.toNat, r) := by
    unfold hexNumber
    dsimp only [List.take, List.drop]
    rw [if_pos ⟨rfl, hall⟩, hn]
  have hchar : charOf? c.toNat = some c := by
    rw [charOf?, if_pos hvalid, Char.ofNat_toNat]
  simp [escaped, codePoint, hhex, hchar]

/-- A character stands between double quotes as an escape that stands for it, or as itself. -/
theorem escape_cases (long : Bool) (c : Char) :
    (∃ cs, escape long c = '\\' :: cs ∧ (∀ r, escaped (cs ++ r) = some (c, r)) ∧
      ∀ r, continued? (cs ++ r) = none) ∨
    (escape long c = [c] ∧ c ≠ '\\' ∧ (isShown c = true ∨ long = true ∧ c = '\n')) := by
  unfold escape
  split
  · next h => exact .inl ⟨['b'], rfl, fun _ => h ▸ rfl, fun _ => rfl⟩
  split
  · next h => exact .inl ⟨['t'], rfl, fun _ => h ▸ rfl, fun _ => rfl⟩
  split
  · next h =>
    cases long with
    | false => exact .inl ⟨['n'], rfl, fun _ => h ▸ rfl, fun _ => rfl⟩
    | true => exact .inr ⟨h ▸ rfl, h ▸ by decide, .inr ⟨rfl, h⟩⟩
  split
  · next h => exact .inl ⟨['f'], rfl, fun _ => h ▸ rfl, fun _ => rfl⟩
  split
  · next h => exact .inl ⟨['r'], rfl, fun _ => h ▸ rfl, fun _ => rfl⟩
  split
  · next h => exact .inl ⟨['\\'], rfl, fun _ => by rw [h]; rfl, fun _ => rfl⟩
  split
  · next h =>
    have hlow : c.toNat < 0x80 := by
      rcases h with h | rfl
      · omega
      · decide
    exact .inl ⟨_, rfl, escaped_unicode hlow, fun _ => rfl⟩
  · next hslash hlow => exact .inr ⟨rfl, hslash, .inl (isShown_of_ge hlow)⟩

theorem escape_ne_nil (long : Bool) (c : Char) : escape long c ≠ [] := by
  rcases escape_cases long c with ⟨cs, hcs, -⟩ | ⟨hc, -⟩
  · rw [hcs]
    exact List.cons_ne_nil _ _
  · rw [hc]
    exact List.cons_ne_nil _ _

theorem length_le_escapeAll (long : Bool) (allowed run : Nat) (cs : List Char) :
    cs.length ≤ (escapeAll long allowed run cs).length := by
  induction cs generalizing run with
  | nil => exact Nat.zero_le _
  | cons c cs ih =>
    have hquoted := ih (run + 1)
    have hother := ih 0
    have hc := List.length_pos_iff.2 (escape_ne_nil long c)
    unfold escapeAll
    split
    · split
      · simpa using hquoted
      · simp only [List.length_cons]
        omega
    · simp only [List.length_append, List.length_cons]
      omega

/-! ## On one line -/

/-- Between double quotes on one line, where every quote is escaped. -/
theorem basicBody_escapeAll (cs r : List Char) {fuel : Nat} (hf : cs.length < fuel) :
    basicBody fuel (escapeAll false 0 0 cs ++ '"' :: r) = some (cs, r) := by
  induction cs generalizing fuel with
  | nil =>
    obtain ⟨fuel, rfl⟩ := Nat.exists_eq_succ_of_ne_zero (Nat.ne_of_gt hf)
    rfl
  | cons c cs ih =>
    obtain ⟨fuel, rfl⟩ := Nat.exists_eq_succ_of_ne_zero (Nat.ne_of_gt (Nat.zero_lt_of_lt hf))
    have hrest := ih (Nat.lt_of_succ_lt_succ hf)
    unfold escapeAll
    by_cases hq : c = '"'
    · subst hq
      have hquote : ∀ r, escaped ('"' :: r) = some ('"', r) := fun _ => rfl
      simp [basicBody, hquote, hrest]
    · rw [if_neg hq, List.append_assoc]
      rcases escape_cases false c with ⟨es, hes, he, -⟩ | ⟨hc, hslash, hshown | ⟨hlong, -⟩⟩
      · rw [hes]
        simp [basicBody, he, hrest]
      · rw [hc]
        simp [basicBody, hq, hslash, hshown, hrest]
      · cases hlong

/-- Between single quotes on one line. -/
theorem literalBody_append {cs : List Char} (r : List Char)
    (h : ∀ c ∈ cs, isShown c = true ∧ c ≠ '\'') :
    literalBody (cs ++ '\'' :: r) = some (cs, r) := by
  induction cs with
  | nil => rfl
  | cons c cs ih =>
    obtain ⟨hshown, hq⟩ := h c List.mem_cons_self
    have hrest := ih fun c hc => h c (List.mem_cons_of_mem _ hc)
    simp [literalBody, hq, hshown, hrest]

/-! ## On many lines -/

/-- The row of one character that a text begins with. -/
def rowLength (q : Char) (cs : List Char) : Nat := (cs.takeWhile (· = q)).length

theorem rowLength_cons (q : Char) (r : List Char) : rowLength q (q :: r) = rowLength q r + 1 := by
  simp [rowLength]

theorem rowLength_cons_ne {q c : Char} (h : c ≠ q) (r : List Char) : rowLength q (c :: r) = 0 := by
  simp [rowLength, h]

theorem closing?_eq_none {q : Char} {cs : List Char} (h : rowLength q cs ≤ 2) :
    closing? q cs = none := by
  unfold closing?
  split
  · next a b c r =>
    refine if_neg ?_
    rintro ⟨rfl, rfl, rfl⟩
    rw [rowLength_cons, rowLength_cons, rowLength_cons] at h
    omega
  · rfl

theorem closing?_replicate {q : Char} {rest : List Char} (hrest : rest.head? ≠ some q) {k : Nat}
    (hk : k ≤ 2) :
    closing? q (List.replicate k q ++ (List.replicate 3 q ++ rest)) =
      some (List.replicate k q, rest) := by
  have hrow : (List.replicate k q ++ rest).takeWhile (· = q) = List.replicate k q := by
    rw [List.takeWhile_append_of_pos fun c hc => by simp [List.eq_of_mem_replicate hc]]
    cases rest with
    | nil => simp
    | cons c rest => simp [show c ≠ q from fun hc => hrest (hc ▸ rfl)]
  have hthree : List.replicate k q ++ (List.replicate 3 q ++ rest) =
      q :: q :: q :: (List.replicate k q ++ rest) := by
    rw [← List.append_assoc, List.replicate_append_replicate, Nat.add_comm,
      ← List.replicate_append_replicate, List.append_assoc]
    rfl
  rw [hthree]
  simp only [closing?, and_self, if_true, hrow, List.length_replicate, Nat.min_eq_right hk]
  rw [List.drop_left' List.length_replicate]

/-- What is written for a text behind a row of quotes: either it is nothing but quotes, or the row
ends before there are three. -/
def Ahead (q : Char) (run : Nat) (written cs : List Char) : Prop :=
  (∃ k, run + k ≤ 2 ∧ cs = List.replicate k q ∧ written = List.replicate k q) ∨
    ∀ r, run + rowLength q (written ++ r) ≤ 2

theorem Ahead.quote {q : Char} {run : Nat} {written cs : List Char}
    (h : Ahead q (run + 1) written cs) : Ahead q run (q :: written) (q :: cs) := by
  rcases h with ⟨k, hk, rfl, rfl⟩ | h
  · exact .inl ⟨k + 1, by omega, rfl, rfl⟩
  · refine .inr fun r => ?_
    have := h r
    rw [List.cons_append, rowLength_cons]
    omega

theorem ahead_of_ne {q c : Char} {run : Nat} (hc : c ≠ q) (hrun : run ≤ 2)
    (written cs : List Char) : Ahead q run (c :: written) cs := by
  refine .inr fun r => ?_
  rw [List.cons_append, rowLength_cons_ne hc]
  exact hrun

/-- The text ends here, or its next character is read. -/
theorem Ahead.closing? {q : Char} {run : Nat} {written cs : List Char}
    (h : Ahead q run written cs) {rest : List Char} (hrest : rest.head? ≠ some q) :
    closing? q (written ++ (List.replicate 3 q ++ rest)) = some (cs, rest) ∨
      closing? q (written ++ (List.replicate 3 q ++ rest)) = none := by
  rcases h with ⟨k, hk, rfl, rfl⟩ | h
  · exact .inl (closing?_replicate hrest (by omega))
  · exact .inr (closing?_eq_none (by have := h (List.replicate 3 q ++ rest); omega))

theorem ahead_escapeAll {run : Nat} (hrun : run ≤ 2) (cs : List Char) :
    Ahead '"' run (escapeAll true 2 run cs) cs := by
  induction cs generalizing run with
  | nil => exact .inl ⟨0, hrun, rfl, rfl⟩
  | cons c cs ih =>
    unfold escapeAll
    by_cases hq : c = '"'
    · subst hq
      rw [if_pos rfl]
      by_cases hlt : run < 2
      · rw [if_pos hlt]
        exact (ih hlt).quote
      · rw [if_neg hlt]
        exact ahead_of_ne (by decide) hrun _ _
    · rw [if_neg hq]
      rcases escape_cases true c with ⟨es, hes, -⟩ | ⟨hc, -⟩
      · rw [hes]
        exact ahead_of_ne (by decide) hrun _ _
      · rw [hc]
        exact ahead_of_ne hq hrun _ _

theorem le_longestRun (q : Char) (run : Nat) (cs : List Char) : run ≤ longestRun q run cs := by
  induction cs generalizing run with
  | nil => exact Nat.le_refl _
  | cons c cs ih =>
    unfold longestRun
    split
    · exact Nat.le_trans (Nat.le_succ _) (ih _)
    · exact Nat.le_max_left _ _

theorem ahead_self {q : Char} {run : Nat} {cs : List Char} (h : longestRun q run cs ≤ 2) :
    Ahead q run cs cs := by
  induction cs generalizing run with
  | nil => exact .inl ⟨0, h, rfl, rfl⟩
  | cons c cs ih =>
    have hrun := Nat.le_trans (le_longestRun q run (c :: cs)) h
    unfold longestRun at h
    by_cases hq : c = q
    · subst hq
      rw [if_pos rfl] at h
      exact (ih h).quote
    · exact ahead_of_ne hq hrun _ _

theorem longestRun_tail {q c : Char} {run : Nat} {cs : List Char}
    (h : longestRun q run (c :: cs) ≤ 2) : ∃ run', longestRun q run' cs ≤ 2 := by
  unfold longestRun at h
  split at h
  · exact ⟨_, h⟩
  · exact ⟨0, Nat.le_trans (Nat.le_max_right _ _) h⟩

section Steps

variable {fuel : Nat} {c : Char} {r xs after : List Char}

theorem longBasicBody_closed {found : List Char × List Char}
    (h : closing? '"' (c :: r) = some found) : longBasicBody (fuel + 1) (c :: r) = some found := by
  rw [longBasicBody, h]

theorem longBasicBody_escape (hline : continued? r = none) {rest : List Char}
    (hchar : escaped r = some (c, rest)) (h : longBasicBody fuel rest = some (xs, after)) :
    longBasicBody (fuel + 1) ('\\' :: r) = some (c :: xs, after) := by
  have hclosing : closing? '"' ('\\' :: r) = none :=
    closing?_eq_none (by rw [rowLength_cons_ne (by decide)]; exact Nat.zero_le 2)
  simp [longBasicBody, hclosing, hline, hchar, h]

theorem longBasicBody_newline (h : longBasicBody fuel r = some (xs, after)) :
    longBasicBody (fuel + 1) ('\n' :: r) = some ('\n' :: xs, after) := by
  have hclosing : closing? '"' ('\n' :: r) = none :=
    closing?_eq_none (by rw [rowLength_cons_ne (by decide)]; exact Nat.zero_le 2)
  simp [longBasicBody, hclosing, newline?, h]

theorem longBasicBody_shown (hclosing : closing? '"' (c :: r) = none) (hslash : c ≠ '\\')
    (hshown : isShown c = true) (h : longBasicBody fuel r = some (xs, after)) :
    longBasicBody (fuel + 1) (c :: r) = some (c :: xs, after) := by
  simp [longBasicBody, hclosing, hslash, newline?_of_isShown hshown, hshown, h]

theorem longLiteralBody_closed {found : List Char × List Char}
    (h : closing? '\'' (c :: r) = some found) :
    longLiteralBody (fuel + 1) (c :: r) = some found := by
  rw [longLiteralBody, h]

theorem longLiteralBody_newline (h : longLiteralBody fuel r = some (xs, after)) :
    longLiteralBody (fuel + 1) ('\n' :: r) = some ('\n' :: xs, after) := by
  have hclosing : closing? '\'' ('\n' :: r) = none :=
    closing?_eq_none (by rw [rowLength_cons_ne (by decide)]; exact Nat.zero_le 2)
  simp [longLiteralBody, hclosing, newline?, h]

theorem longLiteralBody_shown (hclosing : closing? '\'' (c :: r) = none)
    (hshown : isShown c = true) (h : longLiteralBody fuel r = some (xs, after)) :
    longLiteralBody (fuel + 1) (c :: r) = some (c :: xs, after) := by
  simp [longLiteralBody, hclosing, newline?_of_isShown hshown, hshown, h]

end Steps

/-- Between three double quotes. -/
theorem longBasicBody_escapeAll {rest : List Char} (hrest : rest.head? ≠ some '"')
    (cs : List Char) {run fuel : Nat} (hrun : run ≤ 2) (hf : cs.length < fuel) :
    longBasicBody fuel (escapeAll true 2 run cs ++ (List.replicate 3 '"' ++ rest)) =
      some (cs, rest) := by
  induction cs generalizing run fuel with
  | nil =>
    obtain ⟨fuel, rfl⟩ := Nat.exists_eq_succ_of_ne_zero (Nat.ne_of_gt hf)
    exact longBasicBody_closed (closing?_replicate hrest (Nat.zero_le 2))
  | cons c cs ih =>
    obtain ⟨fuel, rfl⟩ := Nat.exists_eq_succ_of_ne_zero (Nat.ne_of_gt (Nat.zero_lt_of_lt hf))
    have hf' : cs.length < fuel := Nat.lt_of_succ_lt_succ hf
    have hclosing := (ahead_escapeAll hrun (c :: cs)).closing? hrest
    unfold escapeAll at hclosing ⊢
    by_cases hq : c = '"'
    · subst hq
      rw [if_pos rfl] at hclosing ⊢
      by_cases hlt : run < 2
      · rw [if_pos hlt] at hclosing ⊢
        rcases hclosing with hclosing | hclosing
        · exact longBasicBody_closed hclosing
        · exact longBasicBody_shown hclosing (by decide) (by decide) (ih hlt hf')
      · rw [if_neg hlt]
        exact longBasicBody_escape rfl rfl (ih (Nat.zero_le 2) hf')
    · have hb := ih (Nat.zero_le 2) hf'
      rw [if_neg hq] at hclosing ⊢
      rcases escape_cases true c with ⟨es, hes, he, hline⟩ | ⟨hc, hslash, hshown | ⟨-, rfl⟩⟩
      · rw [hes, List.append_assoc]
        exact longBasicBody_escape (hline _) (he _) hb
      · rw [hc, List.append_assoc] at hclosing ⊢
        rcases hclosing with hclosing | hclosing
        · exact longBasicBody_closed hclosing
        · exact longBasicBody_shown hclosing hslash hshown hb
      · rw [hc, List.append_assoc]
        exact longBasicBody_newline hb

/-- Between three single quotes. -/
theorem longLiteralBody_append {rest : List Char} (hrest : rest.head? ≠ some '\'')
    {cs : List Char} (hcontrol : ∀ c ∈ cs, isControl c = false) {run fuel : Nat}
    (hrun : longestRun '\'' run cs ≤ 2) (hf : cs.length < fuel) :
    longLiteralBody fuel (cs ++ (List.replicate 3 '\'' ++ rest)) = some (cs, rest) := by
  induction cs generalizing run fuel with
  | nil =>
    obtain ⟨fuel, rfl⟩ := Nat.exists_eq_succ_of_ne_zero (Nat.ne_of_gt hf)
    exact longLiteralBody_closed (closing?_replicate hrest (Nat.zero_le 2))
  | cons c cs ih =>
    obtain ⟨fuel, rfl⟩ := Nat.exists_eq_succ_of_ne_zero (Nat.ne_of_gt (Nat.zero_lt_of_lt hf))
    obtain ⟨run', hrun'⟩ := longestRun_tail hrun
    have hb := ih (fun c hc => hcontrol c (List.mem_cons_of_mem _ hc)) hrun'
      (Nat.lt_of_succ_lt_succ hf)
    rcases (ahead_self hrun).closing? hrest with hclosing | hclosing
    · exact longLiteralBody_closed hclosing
    · by_cases hn : c = '\n'
      · subst hn
        exact longLiteralBody_newline hb
      · have hshown := isShown_of_not_isControl (hcontrol c List.mem_cons_self) hn
        exact longLiteralBody_shown hclosing hshown hb

/-! ## The forms -/

theorem longestRun_pos {q : Char} {run : Nat} {cs : List Char} (h : longestRun q run cs = 0) :
    q ∉ cs := by
  induction cs generalizing run with
  | nil => exact List.not_mem_nil
  | cons c cs ih =>
    unfold longestRun at h
    split at h
    · have := le_longestRun q (run + 1) cs
      omega
    · next hc =>
      rw [List.mem_cons, not_or]
      exact ⟨Ne.symm hc, ih (Nat.max_eq_zero_iff.1 h).2⟩

/-- The forms without escapes are taken only where they can hold the text. -/
theorem formOf_spec (cs : List Char) :
    (formOf cs = .literal → (∀ c ∈ cs, isControl c = false) ∧ '\'' ∉ cs ∧ '\n' ∉ cs) ∧
    (formOf cs = .longLiteral → (∀ c ∈ cs, isControl c = false) ∧ longestRun '\'' 0 cs ≤ 2) := by
  unfold formOf
  dsimp only
  split
  · exact ⟨nofun, nofun⟩
  split
  · next h =>
    refine ⟨fun _ => ⟨?_, longestRun_pos h.2.1, by simpa using h.2.2⟩, nofun⟩
    simpa using h.1
  split
  · exact ⟨nofun, nofun⟩
  split
  · next h => exact ⟨nofun, fun _ => ⟨by simpa using h.1, h.2⟩⟩
  split
  · exact ⟨nofun, nofun⟩
  · exact ⟨nofun, nofun⟩

theorem text_basic {r xs after : List Char} (hr : ∀ r', r ≠ '"' :: '"' :: r')
    (h : basicBody (r.length + 1) r = some (xs, after)) :
    text ('"' :: r) = some (String.ofList xs, after) := by
  rw [text, h]
  · rfl
  · exact fun r' heq => hr r' heq

theorem text_literal {r xs after : List Char} (hr : ∀ r', r ≠ '\'' :: '\'' :: r')
    (h : literalBody r = some (xs, after)) :
    text ('\'' :: r) = some (String.ofList xs, after) := by
  rw [text, h]
  · rfl
  · exact fun r' heq => hr r' heq

theorem text_longBasic {r r' xs after : List Char} (hr : skipFirstNewline r = r')
    (h : longBasicBody (r.length + 1) r' = some (xs, after)) :
    text (List.replicate 3 '"' ++ r) = some (String.ofList xs, after) := by
  change (longBasicBody (r.length + 1) (skipFirstNewline r)).map _ = _
  rw [hr, h]
  rfl

theorem text_longLiteral {r r' xs after : List Char} (hr : skipFirstNewline r = r')
    (h : longLiteralBody (r.length + 1) r' = some (xs, after)) :
    text (List.replicate 3 '\'' ++ r) = some (String.ofList xs, after) := by
  change (longLiteralBody (r.length + 1) (skipFirstNewline r)).map _ = _
  rw [hr, h]
  rfl

/-- Many lines begin behind the first end of a line. -/
theorem skipFirstNewline_append (cs : List Char) {written : List Char}
    (h : '\n' ∉ cs → newline? written = none) :
    skipFirstNewline (firstNewline cs ++ written) = written := by
  unfold firstNewline
  split
  · rfl
  · next hn =>
    have hnone := h (by simpa using hn)
    rw [List.nil_append, skipFirstNewline, hnone]
    rfl

theorem newline?_escapeAll {cs : List Char} (hn : '\n' ∉ cs) (rest : List Char) :
    newline? (escapeAll true 2 0 cs ++ (List.replicate 3 '"' ++ rest)) = none := by
  cases cs with
  | nil => exact newline?_of_isShown (by decide) _
  | cons c cs =>
    unfold escapeAll
    by_cases hq : c = '"'
    · subst hq
      exact newline?_of_isShown (by decide) _
    · rw [if_neg hq, List.append_assoc]
      rcases escape_cases true c with ⟨es, hes, -⟩ | ⟨hc, -, hshown | ⟨-, rfl⟩⟩
      · rw [hes]
        exact newline?_of_isShown (by decide) _
      · rw [hc]
        exact newline?_of_isShown hshown _
      · exact absurd List.mem_cons_self hn

theorem newline?_literal {cs : List Char} (hcontrol : ∀ c ∈ cs, isControl c = false)
    (hn : '\n' ∉ cs) (rest : List Char) :
    newline? (cs ++ (List.replicate 3 '\'' ++ rest)) = none := by
  cases cs with
  | nil => exact newline?_of_isShown (by decide) _
  | cons c cs =>
    have hne : c ≠ '\n' := fun h => hn (h ▸ List.mem_cons_self)
    exact newline?_of_isShown (isShown_of_not_isControl (hcontrol c List.mem_cons_self) hne) _

/-- No second quote follows the first one, not even if the text is empty. -/
theorem escapeAll_ne_quotes (cs : List Char) {rest : List Char} (hrest : rest.head? ≠ some '"')
    (r : List Char) : escapeAll false 0 0 cs ++ '"' :: rest ≠ '"' :: '"' :: r := by
  intro heq
  cases cs with
  | nil => exact hrest (congrArg List.head? (List.cons.inj heq).2)
  | cons c cs =>
    unfold escapeAll at heq
    by_cases hq : c = '"'
    · subst hq
      cases heq
    · rw [if_neg hq, List.append_assoc] at heq
      rcases escape_cases false c with ⟨es, hes, -⟩ | ⟨hc, -⟩
      · rw [hes] at heq
        cases heq
      · rw [hc] at heq
        exact hq (List.cons.inj heq).1

theorem append_ne_quotes {cs rest : List Char} (hcs : '\'' ∉ cs)
    (hrest : rest.head? ≠ some '\'') (r : List Char) :
    cs ++ '\'' :: rest ≠ '\'' :: '\'' :: r := by
  intro heq
  cases cs with
  | nil => exact hrest (congrArg List.head? (List.cons.inj heq).2)
  | cons c cs => exact hcs ((List.cons.inj heq).1 ▸ List.mem_cons_self)

/-- Whatever a text is, it is read back from the form that is taken for it. -/
theorem text_quoteChars (cs : List Char) {rest : List Char} (hdouble : rest.head? ≠ some '"')
    (hsingle : rest.head? ≠ some '\'') :
    text (quoteChars cs ++ rest) = some (String.ofList cs, rest) := by
  obtain ⟨hliteral, hlongLiteral⟩ := formOf_spec cs
  unfold quoteChars
  split
  · have hr := escapeAll_ne_quotes cs hdouble
    have hlength := length_le_escapeAll false 0 0 cs
    have hbody : basicBody ((escapeAll false 0 0 cs ++ '"' :: rest).length + 1)
        (escapeAll false 0 0 cs ++ '"' :: rest) = some (cs, rest) :=
      basicBody_escapeAll cs rest (by rw [List.length_append]; omega)
    simpa using text_basic hr hbody
  · next hform =>
    obtain ⟨hcontrol, hq, hn⟩ := hliteral hform
    have hr := append_ne_quotes hq hsingle
    have hshown : ∀ c ∈ cs, isShown c = true ∧ c ≠ '\'' := fun c hc =>
      ⟨isShown_of_not_isControl (hcontrol c hc) fun h => hn (h ▸ hc), fun h => hq (h ▸ hc)⟩
    simpa using text_literal hr (literalBody_append rest hshown)
  · have hskip := skipFirstNewline_append cs fun hn => newline?_escapeAll hn rest
    have hlength := length_le_escapeAll true 2 0 cs
    simp only [List.append_assoc]
    refine text_longBasic hskip (longBasicBody_escapeAll hdouble cs (Nat.zero_le 2) ?_)
    simp only [List.length_append]
    omega
  · next hform =>
    obtain ⟨hcontrol, hrun⟩ := hlongLiteral hform
    have hskip := skipFirstNewline_append cs fun hn => newline?_literal hcontrol hn rest
    simp only [List.append_assoc]
    refine text_longLiteral hskip (longLiteralBody_append hsingle hcontrol hrun ?_)
    simp only [List.length_append]
    omega

end LinkTest.Toml
