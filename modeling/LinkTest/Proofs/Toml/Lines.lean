import LinkTest.Proofs.Json.Numerals
import LinkTest.Proofs.Toml.Texts
import LinkTest.Toml.Reader

/-!
# Lines that are read back

The lines that are written, each a bare key with a text or a number, and the headers between them
are read back as the statements that they stand for.
-/

namespace LinkTest.Toml

/-! ## Values at the end of a line -/

/-- The characters stand for the value up to the end of the line. -/
structure Spelled (d : Datum) (cs : List Char) : Prop where
  start : ∃ c r, cs = c :: r ∧ isBlank c = false
  value : ∀ fuel depth rest,
    value (fuel + 1) depth (cs ++ '\n' :: rest) = some (d, '\n' :: rest)

theorem quoteChars_head (cs : List Char) :
    ∃ c r, quoteChars cs = c :: r ∧ (c = '"' ∨ c = '\'') := by
  unfold quoteChars
  split
  · exact ⟨'"', _, rfl, .inl rfl⟩
  · exact ⟨'\'', _, rfl, .inr rfl⟩
  · exact ⟨'"', _, rfl, .inl rfl⟩
  · exact ⟨'\'', _, rfl, .inr rfl⟩

theorem spelled_text (s : String) : Spelled (.text s) (quoteChars s.toList) := by
  obtain ⟨c, r, hcs, hc⟩ := quoteChars_head s.toList
  constructor
  · refine ⟨c, r, hcs, ?_⟩
    rcases hc with rfl | rfl <;> rfl
  · intro fuel depth rest
    have htext : text (quoteChars s.toList ++ '\n' :: rest) =
        some (String.ofList s.toList, '\n' :: rest) :=
      text_quoteChars s.toList (by simp) (by simp)
    rw [hcs, List.cons_append] at htext ⊢
    rw [Toml.value, if_pos hc, htext, String.ofList_toList]
    rfl

theorem moreDigits_append {ds : List Char} (hd : ∀ c ∈ ds, c.isDigit = true) (rest : List Char) :
    moreDigits Char.isDigit (ds ++ '\n' :: rest) = some (ds, '\n' :: rest) := by
  induction ds with
  | nil => rfl
  | cons c ds ih =>
    have hc := hd c List.mem_cons_self
    have hrest := ih fun c h => hd c (List.mem_cons_of_mem _ h)
    simp [moreDigits, hc, hrest]

theorem wholeDigits_toDigits (n : Nat) (rest : List Char) :
    wholeDigits (Nat.toDigits 10 n ++ '\n' :: rest) =
      some (Nat.toDigits 10 n, '\n' :: rest) := by
  obtain ⟨hne, hdigits⟩ := Text.isDigits_toDigits n
  have hlead := Json.lead_toDigits n
  cases hds : Nat.toDigits 10 n with
  | nil => exact absurd hds hne
  | cons c ds =>
    rw [hds] at hdigits hlead
    by_cases hc : c = '0'
    · subst hc
      obtain ⟨-, rfl⟩ := List.cons.inj (hlead rfl)
      rfl
    · have hmore := moreDigits_append (fun c h => hdigits c (List.mem_cons_of_mem _ h)) rest
      unfold wholeDigits
      split
      · next heq => exact absurd (List.cons.inj heq).1 hc
      · simp [digitRow, hdigits c List.mem_cons_self, hmore]

theorem ne_of_isDigit {c x : Char} (h : c.isDigit = true) (hx : x.isDigit = false) : c ≠ x := by
  rintro rfl
  exact Bool.false_ne_true (hx.symm.trans h)

/-- What stands behind digits up to another character is behind the end of the line as well. -/
theorem mem_of_digits {ds before rest after : List Char} {x : Char}
    (hd : ∀ c ∈ ds, c.isDigit = true) (hx : x.isDigit = false) (hn : x ≠ '\n')
    (h : ds ++ '\n' :: rest = before ++ x :: after) : '\n' ∈ before := by
  induction ds generalizing before with
  | nil =>
    cases before with
    | nil => exact absurd (List.cons.inj h).1.symm hn
    | cons b before => exact (List.cons.inj h).1 ▸ List.mem_cons_self
  | cons c ds ih =>
    cases before with
    | nil => exact absurd (List.cons.inj h).1 (ne_of_isDigit (hd c List.mem_cons_self) hx)
    | cons b before =>
      have hrest := ih (fun c hc => hd c (List.mem_cons_of_mem _ hc)) (List.cons.inj h).2
      exact List.mem_cons_of_mem _ hrest

/-- Digits alone are no part of a date or of a time. -/
theorem startsMoment_digits {ds : List Char} (hd : ∀ c ∈ ds, c.isDigit = true) (rest : List Char) :
    startsMoment (ds ++ '\n' :: rest) = false := by
  have hnewline : ∀ before : List Char, '\n' ∈ before → before.all Char.isDigit = false :=
    fun before h => List.all_eq_false.2 ⟨'\n', h, by decide⟩
  unfold startsMoment
  split
  · next a b r heq =>
    have hmem : '\n' ∈ [a, b] := mem_of_digits hd (by decide) (by decide) heq
    simpa using hnewline _ hmem
  · next a b c d r _ heq =>
    have hmem : '\n' ∈ [a, b, c, d] := mem_of_digits hd (by decide) (by decide) heq
    simpa using hnewline _ hmem
  · rfl

theorem digits_cons {ds : List Char} (hd : Text.IsDigits ds) (rest : List Char) :
    ∃ c r, ds ++ '\n' :: rest = c :: r ∧ c.isDigit = true := by
  cases ds with
  | nil => exact absurd rfl hd.1
  | cons c ds => exact ⟨c, _, rfl, hd.2 c List.mem_cons_self⟩

theorem sign_digits {ds : List Char} (hd : Text.IsDigits ds) (rest : List Char) :
    sign (ds ++ '\n' :: rest) = (false, ds ++ '\n' :: rest) := by
  obtain ⟨c, r, hcr, hc⟩ := digits_cons hd rest
  rw [hcr]
  unfold sign
  split
  · next heq => exact absurd (List.cons.inj heq).1 (ne_of_isDigit hc (by decide))
  · next heq => exact absurd (List.cons.inj heq).1 (ne_of_isDigit hc (by decide))
  · rfl

theorem word?_digits {ds : List Char} (hd : Text.IsDigits ds) (rest : List Char) {e : Char}
    (he : e.isDigit = false) (es : List Char) : word? (e :: es) (ds ++ '\n' :: rest) = none := by
  obtain ⟨c, r, hcr, hc⟩ := digits_cons hd rest
  rw [hcr, word?, if_neg (ne_of_isDigit hc he)]

/-- A number that begins with a digit is in no other base and is not a word. -/
theorem number_digits {ds : List Char} (hd : Text.IsDigits ds) (rest : List Char) :
    number (ds ++ '\n' :: rest) = decimalNumber (ds ++ '\n' :: rest) := by
  have hbase : ∀ (x : Char) (r : List Char), x.isDigit = false → x ≠ '\n' →
      ds ++ '\n' :: rest ≠ '0' :: x :: r := by
    intro x r hx hn h
    have hmem : '\n' ∈ ['0'] := mem_of_digits hd.2 hx hn h
    exact absurd hmem (by decide)
  have hinf := word?_digits hd rest (e := 'i') (by decide) ['n', 'f']
  have hnan := word?_digits hd rest (e := 'n') (by decide) ['a', 'n']
  have hword : wordNumber (ds ++ '\n' :: rest) = none := by
    rw [wordNumber, sign_digits hd]
    simp [hinf, hnan]
  unfold number
  split
  · next heq => exact absurd heq (hbase 'x' _ (by decide) (by decide))
  · next heq => exact absurd heq (hbase 'o' _ (by decide) (by decide))
  · next heq => exact absurd heq (hbase 'b' _ (by decide) (by decide))
  · rw [hword, Option.none_or]

theorem decimalNumber_toDigits {n : Nat} (h : Fits n) (rest : List Char) :
    decimalNumber (Nat.toDigits 10 n ++ '\n' :: rest) = some (.whole n, '\n' :: rest) := by
  have hsign := sign_digits (Text.isDigits_toDigits n) rest
  have hwhole := wholeDigits_toDigits n rest
  have hfraction : fraction ('\n' :: rest) = some (none, '\n' :: rest) := rfl
  have hpower : power ('\n' :: rest) = some (none, '\n' :: rest) := rfl
  have hdatum : signedDatum? false n = some (.whole n) := if_pos h
  simp [decimalNumber, hsign, hwhole, hfraction, hpower, Text.numberIn_toDigits, hdatum]

theorem scalar_digits {ds : List Char} (hd : Text.IsDigits ds) (rest : List Char) :
    scalar (ds ++ '\n' :: rest) = decimalNumber (ds ++ '\n' :: rest) := by
  have htrue := word?_digits hd rest (e := 't') (by decide) ['r', 'u', 'e']
  have hfalse := word?_digits hd rest (e := 'f') (by decide) ['a', 'l', 's', 'e']
  have hmoment := startsMoment_digits hd.2 rest
  rw [← number_digits hd]
  simp [scalar, htrue, hfalse, hmoment]

theorem spelled_number {n : Nat} (h : Fits n) : Spelled (.whole n) (Nat.toDigits 10 n) := by
  have hd := Text.isDigits_toDigits n
  constructor
  · cases hds : Nat.toDigits 10 n with
    | nil => exact absurd hds hd.1
    | cons c ds =>
      have hc : c.isDigit = true := hd.2 c (hds ▸ List.mem_cons_self)
      refine ⟨c, ds, rfl, ?_⟩
      simp [isBlank, ne_of_isDigit hc (show Char.isDigit ' ' = false by decide),
        ne_of_isDigit hc (show Char.isDigit '\t' = false by decide)]
  · intro fuel depth rest
    have hscalar := scalar_digits hd rest
    rw [decimalNumber_toDigits h] at hscalar
    obtain ⟨c, r, hcr, hc⟩ := digits_cons hd rest
    rw [hcr] at hscalar ⊢
    have hne : ∀ x : Char, x.isDigit = false → c ≠ x := fun x hx => ne_of_isDigit hc hx
    rw [Toml.value, if_neg (not_or.2 ⟨hne _ (by decide), hne _ (by decide)⟩),
      if_neg (hne _ (by decide)), if_neg (hne _ (by decide)), hscalar]

/-! ## Statements -/

/-- A key that can be written as it is. -/
def IsBareKey (k : String) : Prop := k.toList ≠ [] ∧ ∀ c ∈ k.toList, isBare c = true

instance (k : String) : Decidable (IsBareKey k) :=
  decidable_of_iff ((!k.toList.isEmpty && k.toList.all isBare) = true) (by simp [IsBareKey])

theorem ne_of_isBare {c x : Char} (h : isBare c = true) (hx : isBare x = false) : c ≠ x := by
  rintro rfl
  exact Bool.false_ne_true (hx.symm.trans h)

theorem IsBareKey.cons {k : String} (h : IsBareKey k) :
    ∃ c cs, k.toList = c :: cs ∧ isBare c = true ∧ ∀ x ∈ cs, isBare x = true := by
  cases hk : k.toList with
  | nil => exact absurd hk h.1
  | cons c cs =>
    have hall := hk ▸ h.2
    exact ⟨c, cs, rfl, hall c List.mem_cons_self, fun x hx => hall x (List.mem_cons_of_mem _ hx)⟩

theorem isBlank_of_isBare {c : Char} (h : isBare c = true) : isBlank c = false := by
  simp [isBlank, ne_of_isBare h (show isBare ' ' = false by decide),
    ne_of_isBare h (show isBare '\t' = false by decide)]

theorem skipBlanks_cons {c : Char} (h : isBlank c = false) (r : List Char) :
    skipBlanks (c :: r) = c :: r :=
  List.dropWhile_cons_of_neg (by rw [h]; exact Bool.false_ne_true)

theorem simpleKey_bare {k : String} (h : IsBareKey k) {x : Char} (hx : isBare x = false)
    (r : List Char) : simpleKey (skipBlanks (k.toList ++ x :: r)) = some (k, x :: r) := by
  obtain ⟨c, cs, hk, hc, hcs⟩ := h.cons
  have htake : (cs ++ x :: r).takeWhile isBare = cs := by
    rw [List.takeWhile_append_of_pos hcs, List.takeWhile_cons_of_neg (by simp [hx]),
      List.append_nil]
  have hdrop : (cs ++ x :: r).dropWhile isBare = x :: r := by
    rw [List.dropWhile_append_of_pos hcs, List.dropWhile_cons_of_neg (by simp [hx])]
  rw [hk, List.cons_append, skipBlanks_cons (isBlank_of_isBare hc), simpleKey,
    if_neg (ne_of_isBare hc (by decide)), if_neg (ne_of_isBare hc (by decide)), if_pos hc, htake,
    hdrop, ← hk, String.ofList_toList]

/-- A bare key ends before whatever cannot be in one. -/
theorem key_bare {k : String} (h : IsBareKey k) {x : Char} {r : List Char}
    (hx : isBare x = false) {y : Char} {r' : List Char} (hr : skipBlanks (x :: r) = y :: r')
    (hy : y ≠ '.') : key (k.toList ++ x :: r) = some (⟨[], k⟩, y :: r') := by
  have hparts : keyParts nestingLimit (k.toList ++ x :: r) = some ([k], y :: r') := by
    change keyParts (79 + 1) (k.toList ++ x :: r) = _
    rw [keyParts, simpleKey_bare h hx, Option.bind_eq_bind, Option.bind_some]
    dsimp only
    rw [hr]
    split
    · next heq => exact absurd (List.cons.inj heq).1 hy
    · rfl
  rw [key, hparts]
  rfl

/-- A line with a key and a value. -/
theorem statement_pair {k : String} (hk : IsBareKey k) {d : Datum} {cs : List Char}
    (hd : Spelled d cs) (rest : List Char) :
    statement (k.toList ++ ' ' :: '=' :: ' ' :: (cs ++ '\n' :: rest)) =
      some (.pair ⟨[], k⟩ d, rest) := by
  obtain ⟨c, r, rfl, hc⟩ := hd.start
  have hkey : key (k.toList ++ ' ' :: '=' :: ' ' :: (c :: r ++ '\n' :: rest)) =
      some (⟨[], k⟩, '=' :: ' ' :: (c :: r ++ '\n' :: rest)) :=
    key_bare hk (by decide) rfl (by decide)
  have hpast : past? '=' ('=' :: ' ' :: (c :: r ++ '\n' :: rest)) =
      some (' ' :: (c :: r ++ '\n' :: rest)) := rfl
  have hskip : skipBlanks (' ' :: (c :: r ++ '\n' :: rest)) = c :: r ++ '\n' :: rest :=
    skipBlanks_cons hc _
  obtain ⟨x, xs, hx, hbare, -⟩ := hk.cons
  rw [hx] at hkey ⊢
  unfold statement
  split
  · next heq => exact absurd (List.cons.inj heq).1 (ne_of_isBare hbare (by decide))
  · next heq => exact absurd (List.cons.inj heq).1 (ne_of_isBare hbare (by decide))
  · rw [hkey, Option.bind_eq_bind, Option.bind_some]
    dsimp only
    rw [hpast, Option.bind_eq_bind, Option.bind_some, hskip, hd.value, Option.bind_eq_bind,
      Option.bind_some]
    rfl

/-- The header of a dictionary. -/
theorem statement_header {k : String} (hk : IsBareKey k) (rest : List Char) :
    statement ('[' :: (k.toList ++ ']' :: '\n' :: rest)) = some (.header ⟨[], k⟩, rest) := by
  have hkey : key (k.toList ++ ']' :: '\n' :: rest) = some (⟨[], k⟩, ']' :: '\n' :: rest) :=
    key_bare hk (by decide) rfl (by decide)
  obtain ⟨x, xs, hx, hbare, -⟩ := hk.cons
  rw [hx] at hkey ⊢
  unfold statement
  split
  · next heq =>
    exact absurd (List.cons.inj (List.cons.inj heq).2).1 (ne_of_isBare hbare (by decide))
  · next heq =>
    obtain ⟨-, rfl⟩ := List.cons.inj heq
    rw [hkey]
    rfl
  · next heq => exact absurd rfl (heq _)

/-! ## Whole texts -/

/-- The characters are read as these statements. -/
def States (cs : List Char) (ss : List Statement) : Prop :=
  ∀ fuel, cs.length < fuel → statements fuel cs = some ss

theorem states_nil : States [] [] := by
  intro fuel hf
  obtain ⟨fuel, rfl⟩ := Nat.exists_eq_succ_of_ne_zero (Nat.ne_of_gt hf)
  rfl

/-- A statement with what follows it. -/
theorem States.cons {c : Char} {r rest : List Char} {s : Statement} {ss : List Statement}
    (hc : isBlank c = false ∧ c ≠ '#' ∧ c ≠ '\n' ∧ c ≠ '\r')
    (hs : statement (c :: r) = some (s, rest)) (hlength : rest.length < (c :: r).length)
    (h : States rest ss) : States (c :: r) (s :: ss) := by
  intro fuel hf
  obtain ⟨fuel, rfl⟩ := Nat.exists_eq_succ_of_ne_zero (Nat.ne_of_gt (Nat.zero_lt_of_lt hf))
  have hrest := h fuel (by omega)
  rw [statements, skipBlanks_cons hc.1]
  dsimp only
  rw [if_neg (not_or.2 ⟨hc.2.1, not_or.2 hc.2.2⟩), hs, Option.bind_eq_bind, Option.bind_some]
  dsimp only
  rw [hrest]
  rfl

theorem States.newline {rest : List Char} {ss : List Statement} (h : States rest ss) :
    States ('\n' :: rest) ss := by
  intro fuel hf
  obtain ⟨fuel, rfl⟩ := Nat.exists_eq_succ_of_ne_zero (Nat.ne_of_gt (Nat.zero_lt_of_lt hf))
  exact h fuel (Nat.lt_of_succ_lt_succ hf)

theorem States.line {k value : String} (hk : IsBareKey k) {d : Datum}
    (hd : Spelled d value.toList) {rest : List Char} {ss : List Statement} (h : States rest ss) :
    States ((line k value).toList ++ rest) (.pair ⟨[], k⟩ d :: ss) := by
  obtain ⟨c, cs, hx, hc, -⟩ := hk.cons
  have hline : (Toml.line k value).toList ++ rest =
      k.toList ++ ' ' :: '=' :: ' ' :: (value.toList ++ '\n' :: rest) := by
    simp [Toml.line]
  have hs := statement_pair hk hd rest
  rw [hline]
  rw [hx, List.cons_append] at hs ⊢
  refine .cons ?_ hs ?_ h
  · exact ⟨isBlank_of_isBare hc, ne_of_isBare hc (by decide), ne_of_isBare hc (by decide),
      ne_of_isBare hc (by decide)⟩
  · simp only [List.length_cons, List.length_append]
    omega

theorem States.header {k : String} (hk : IsBareKey k) {rest : List Char} {ss : List Statement}
    (h : States rest ss) : States ((header k).toList ++ rest) (.header ⟨[], k⟩ :: ss) := by
  have hheader : (Toml.header k).toList ++ rest =
      '\n' :: '[' :: (k.toList ++ ']' :: '\n' :: rest) := by
    simp [Toml.header]
  rw [hheader]
  refine .newline (.cons (by decide) (statement_header hk rest) ?_ h)
  simp only [List.length_cons, List.length_append]
  omega

/-- A text that is read as statements which build a tree is read as that tree. -/
theorem read?_of_states {s : String} {ss : List Statement} {n : Node} (h : States s.toList ss)
    (hmark : s.toList.head? ≠ some '\ufeff') (hn : build? ss = some n) :
    read? s = some n.datum := by
  have hskip : skipMark s.toList = s.toList := by
    unfold skipMark
    split
    · next heq => exact absurd (congrArg List.head? heq) hmark
    · rfl
  rw [read?, hskip, h _ (Nat.lt_succ_self _), Option.bind_some, hn]
  rfl

end LinkTest.Toml
