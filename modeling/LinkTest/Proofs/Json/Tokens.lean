import LinkTest.Json.Reader
import LinkTest.Proofs.Datum.Fields
import LinkTest.Proofs.Json.Texts

/-!
# Tokens of JSON text

A quoted text, a word or a number is read up to where it ends, and what stands behind it has no
part in what it is.
-/

namespace LinkTest.Json

/-! ## Quoted texts -/

/-- What may stand between quotes: characters that are no quotes, and escapes of the right form. -/
inductive Between : List Char → Prop
  | nil : Between []
  | plain {c : Char} {l : List Char} (hquote : c ≠ '"') (hslash : c ≠ '\\')
    (hlow : ¬c.toNat < 0x20) (h : Between l) : Between (c :: l)
  | short {c : Char} {l : List Char} (hc : (shortEscape? c).isSome = true) (h : Between l) :
    Between ('\\' :: c :: l)
  | unit {a b c d : Char} {l : List Char} (hex : [a, b, c, d].all (Text.isDigitIn 16) = true)
    (h : Between l) : Between ('\\' :: 'u' :: a :: b :: c :: d :: l)

/-- The character stands for itself. -/
def isPlain (c : Char) : Bool := c != '"' && c != '\\' && !decide (c.toNat < 0x20)

theorem between_of_all {l : List Char} (h : l.all isPlain = true) : Between l := by
  induction l with
  | nil => exact .nil
  | cons c l ih =>
    obtain ⟨⟨⟨hquote, hslash⟩, hlow⟩, hl⟩ :
        ((c ≠ '"' ∧ c ≠ '\\') ∧ ¬c.toNat < 0x20) ∧ l.all isPlain = true := by
      simpa [isPlain] using h
    exact .plain hquote hslash hlow (ih hl)

/-- What is said between quotes, be it a text or a fault, whatever follows. -/
def Says (l : List Char) (said : Except Fault (List Char)) : Prop :=
  ∀ fuel rest, l.length < fuel →
    textBody fuel (l ++ '"' :: rest) = said.map fun xs => (xs, rest)

variable {l : List Char} {said : Except Fault (List Char)}

theorem says_nil : Says [] (.ok []) := by
  intro fuel rest hf
  obtain ⟨fuel, rfl⟩ := Nat.exists_eq_succ_of_ne_zero (Nat.ne_of_gt hf)
  rfl

theorem map_bind_ok {x : Char} (said : Except Fault (List Char)) (rest : List Char) :
    ((said.map fun xs => (xs, rest)) >>= fun p => Except.ok (x :: p.1, p.2)) =
      (said.map (x :: ·)).map fun xs => (xs, rest) := by
  cases said <;> rfl

theorem Says.plain (h : Says l said) {c : Char} (hquote : c ≠ '"') (hslash : c ≠ '\\')
    (hlow : ¬c.toNat < 0x20) : Says (c :: l) (said.map (c :: ·)) := by
  intro fuel rest hf
  obtain ⟨fuel, rfl⟩ := Nat.exists_eq_succ_of_ne_zero (Nat.ne_of_gt (Nat.zero_lt_of_lt hf))
  rw [List.cons_append, textBody, if_neg hquote, if_neg hslash, if_neg hlow,
    h fuel rest (Nat.lt_of_succ_lt_succ hf)]
  exact map_bind_ok said rest

/-- An escape that stands for a character says this character. -/
theorem Says.escaped (h : Says l said) {e : List Char} {x : Char}
    (he : ∀ rest, escaped (e ++ rest) = .ok (x, rest)) :
    Says ('\\' :: (e ++ l)) (said.map (x :: ·)) := by
  intro fuel rest hf
  obtain ⟨fuel, rfl⟩ := Nat.exists_eq_succ_of_ne_zero (Nat.ne_of_gt (Nat.zero_lt_of_lt hf))
  have hlen : l.length < fuel := by
    simp only [List.length_cons, List.length_append] at hf
    omega
  rw [List.cons_append, textBody, if_neg (by decide), if_pos rfl, List.append_assoc, he,
    ← map_bind_ok said rest, ← h fuel rest hlen]
  rfl

/-- An escape that stands for nothing is a fault. -/
theorem says_fault {e : List Char} {f : Fault}
    (he : ∀ rest, escaped (e ++ '"' :: rest) = .error f) : Says ('\\' :: e) (.error f) := by
  intro fuel rest hf
  obtain ⟨fuel, rfl⟩ := Nat.exists_eq_succ_of_ne_zero (Nat.ne_of_gt (Nat.zero_lt_of_lt hf))
  rw [List.cons_append, textBody, if_neg (by decide), if_pos rfl, he]
  rfl

variable {a b c d : Char}

theorem escaped_unit (hex : [a, b, c, d].all (Text.isDigitIn 16) = true) (rest : List Char) :
    escaped ('u' :: a :: b :: c :: d :: rest) =
      (if isLowHalf (Text.numberIn 16 [a, b, c, d]) then .error .surrogateUnpaired
      else if isHighHalf (Text.numberIn 16 [a, b, c, d]) then
        (lowHalf rest).bind fun p => .ok (Char.ofNat (0x10000 +
          (Text.numberIn 16 [a, b, c, d] - 0xd800) * 0x400 + (p.1 - 0xdc00)), p.2)
      else .ok (Char.ofNat (Text.numberIn 16 [a, b, c, d]), rest)) := by
  rw [escaped, if_pos rfl, hexUnit_four hex]
  rfl

theorem lowHalf_unit (hex : [a, b, c, d].all (Text.isDigitIn 16) = true) (rest : List Char) :
    lowHalf ('\\' :: 'u' :: a :: b :: c :: d :: rest) =
      if isLowHalf (Text.numberIn 16 [a, b, c, d]) then .ok (Text.numberIn 16 [a, b, c, d], rest)
      else .error .surrogateUnpaired := by
  rw [lowHalf, hexUnit_four hex]
  rfl

theorem lowHalf_of_ne_slash (h : c ≠ '\\') (rest : List Char) :
    lowHalf (c :: rest) = .error .surrogateHalf := by
  unfold lowHalf
  split <;> simp_all

theorem lowHalf_of_ne_unit (h : c ≠ 'u') (rest : List Char) :
    lowHalf ('\\' :: c :: rest) = .error .surrogateHalf := by
  unfold lowHalf
  split <;> simp_all

/-- The first half of a character is a fault where the second is missing. -/
theorem says_unit_alone (hex : [a, b, c, d].all (Text.isDigitIn 16) = true)
    (hlow : ¬isLowHalf (Text.numberIn 16 [a, b, c, d]) = true)
    (hhigh : isHighHalf (Text.numberIn 16 [a, b, c, d]) = true) {f : Fault}
    (hhalf : ∀ rest, lowHalf (l ++ '"' :: rest) = .error f) :
    Says ('\\' :: 'u' :: a :: b :: c :: d :: l) (.error f) := by
  refine says_fault fun rest => ?_
  simp only [List.cons_append]
  rw [escaped_unit hex, if_neg hlow, if_pos hhigh, hhalf]
  rfl

theorem says_pair {a' b' c' d' : Char} (h : Says l said)
    (hex : [a, b, c, d].all (Text.isDigitIn 16) = true)
    (hex' : [a', b', c', d'].all (Text.isDigitIn 16) = true)
    (hlow : ¬isLowHalf (Text.numberIn 16 [a, b, c, d]) = true)
    (hhigh : isHighHalf (Text.numberIn 16 [a, b, c, d]) = true)
    (hlow' : isLowHalf (Text.numberIn 16 [a', b', c', d']) = true) : ∃ said',
    Says ('\\' :: 'u' :: a :: b :: c :: d :: '\\' :: 'u' :: a' :: b' :: c' :: d' :: l) said' := by
  have hpair : ∀ rest, escaped ('u' :: a :: b :: c :: d :: '\\' :: 'u' :: a' :: b' :: c' :: d' ::
      rest) = .ok (Char.ofNat (0x10000 + (Text.numberIn 16 [a, b, c, d] - 0xd800) * 0x400 +
        (Text.numberIn 16 [a', b', c', d'] - 0xdc00)), rest) := by
    intro rest
    rw [escaped_unit hex, if_neg hlow, if_pos hhigh, lowHalf_unit hex', if_pos hlow']
    rfl
  exact ⟨_, h.escaped (e := ['u', a, b, c, d, '\\', 'u', a', b', c', d']) hpair⟩

/-- A unit that is one half of a character needs the other half in the next unit. -/
theorem says_unit (hex : [a, b, c, d].all (Text.isDigitIn 16) = true) (hl : Between l)
    (h : ∃ said, Says l said)
    (hnext : ∀ a b c d l', l = '\\' :: 'u' :: a :: b :: c :: d :: l' → ∃ said, Says l' said) :
    ∃ said, Says ('\\' :: 'u' :: a :: b :: c :: d :: l) said := by
  by_cases hlow : isLowHalf (Text.numberIn 16 [a, b, c, d]) = true
  · refine ⟨_, says_fault (f := .surrogateUnpaired) fun rest => ?_⟩
    simp only [List.cons_append]
    rw [escaped_unit hex, if_pos hlow]
  by_cases hhigh : isHighHalf (Text.numberIn 16 [a, b, c, d]) = true
  · cases hl with
    | nil => exact ⟨_, says_unit_alone hex hlow hhigh (lowHalf_of_ne_slash (by decide))⟩
    | plain hquote hslash _ _ =>
      exact ⟨_, says_unit_alone hex hlow hhigh fun _ => lowHalf_of_ne_slash hslash _⟩
    | @short x _ hx _ =>
      have hu : x ≠ 'u' := by
        rintro rfl
        cases hx
      exact ⟨_, says_unit_alone hex hlow hhigh fun _ => lowHalf_of_ne_unit hu _⟩
    | @unit a' b' c' d' l' hex' _ =>
      by_cases hlow' : isLowHalf (Text.numberIn 16 [a', b', c', d']) = true
      · obtain ⟨said, hsaid⟩ := hnext _ _ _ _ _ rfl
        exact says_pair hsaid hex hex' hlow hhigh hlow'
      · refine ⟨_, says_unit_alone (f := .surrogateUnpaired) hex hlow hhigh fun rest => ?_⟩
        simp only [List.cons_append]
        rw [lowHalf_unit hex', if_neg hlow']
  · obtain ⟨said, hsaid⟩ := h
    have hwhole : ∀ rest, escaped ('u' :: a :: b :: c :: d :: rest) =
        .ok (Char.ofNat (Text.numberIn 16 [a, b, c, d]), rest) := by
      intro rest
      rw [escaped_unit hex, if_neg hlow, if_neg hhigh]
    exact ⟨_, hsaid.escaped (e := ['u', a, b, c, d]) hwhole⟩

theorem exists_says (h : Between l) : (∃ said, Says l said) ∧
    ∀ a b c d l', l = '\\' :: 'u' :: a :: b :: c :: d :: l' → ∃ said, Says l' said := by
  induction h with
  | nil => exact ⟨⟨_, says_nil⟩, nofun⟩
  | plain hquote hslash hlow h ih =>
    obtain ⟨said, hsaid⟩ := ih.1
    exact ⟨⟨_, hsaid.plain hquote hslash hlow⟩,
      fun _ _ _ _ _ heq => absurd (List.cons.inj heq).1 hslash⟩
  | @short c l hc h ih =>
    obtain ⟨said, hsaid⟩ := ih.1
    obtain ⟨x, hx⟩ := Option.isSome_iff_exists.1 hc
    have hu : c ≠ 'u' := by
      rintro rfl
      cases hx
    have he : ∀ rest, escaped (c :: rest) = .ok (x, rest) := fun rest => by
      rw [escaped, if_neg hu, hx]
    exact ⟨⟨_, hsaid.escaped (e := [c]) he⟩,
      fun _ _ _ _ _ heq => absurd (List.cons.inj (List.cons.inj heq).2).1 hu⟩
  | unit hex h ih =>
    refine ⟨says_unit hex h ih.1 ih.2, fun _ _ _ _ _ heq => ?_⟩
    simp only [List.cons.injEq] at heq
    obtain ⟨-, -, -, -, -, -, rfl⟩ := heq
    exact ih.1

/-- Who passes over a quoted text gets to its end. -/
theorem skipTextBody_between (h : Between l) {fuel : Nat} (rest : List Char)
    (hf : l.length < fuel) : skipTextBody fuel (l ++ '"' :: rest) = .ok rest := by
  induction h generalizing fuel with
  | nil =>
    obtain ⟨fuel, rfl⟩ := Nat.exists_eq_succ_of_ne_zero (Nat.ne_of_gt hf)
    rfl
  | plain hquote hslash hlow h ih =>
    obtain ⟨fuel, rfl⟩ := Nat.exists_eq_succ_of_ne_zero (Nat.ne_of_gt (Nat.zero_lt_of_lt hf))
    rw [List.cons_append, skipTextBody, if_neg hquote, if_neg hslash, if_neg hlow,
      ih (Nat.lt_of_succ_lt_succ hf)]
  | @short c l hc h ih =>
    obtain ⟨fuel, rfl⟩ := Nat.exists_eq_succ_of_ne_zero (Nat.ne_of_gt (Nat.zero_lt_of_lt hf))
    have hu : c ≠ 'u' := by
      rintro rfl
      cases hc
    have hlen : l.length < fuel := by
      simp only [List.length_cons] at hf
      omega
    rw [List.cons_append, List.cons_append, skipTextBody, if_neg (by decide), if_pos rfl,
      skipEscaped, if_neg hu, if_pos hc]
    exact ih hlen
  | @unit a b c d l hex h ih =>
    obtain ⟨fuel, rfl⟩ := Nat.exists_eq_succ_of_ne_zero (Nat.ne_of_gt (Nat.zero_lt_of_lt hf))
    have hlen : l.length < fuel := by
      simp only [List.length_cons] at hf
      omega
    simp only [List.cons_append]
    rw [skipTextBody, if_neg (by decide), if_pos rfl, skipEscaped, if_pos rfl, hexUnit_four hex]
    exact ih hlen

/-- A quoted text is the same whatever follows it. -/
theorem textToken_between (h : Between l) :
    ∃ said, ∀ rest, textToken (l ++ '"' :: rest) = ⟨said, .ok rest⟩ := by
  obtain ⟨said, hsaid⟩ := ( exists_says h).1
  refine ⟨said.map String.ofList, fun rest => ?_⟩
  have hlen : l.length < (l ++ '"' :: rest).length := by
    simp only [List.length_append, List.length_cons]
    omega
  rw [textToken, hsaid _ rest hlen, skipTextBody_between h rest hlen]
  cases said <;> rfl

/-! ## Words and numbers -/

/-- The brackets, the colon and the comma. -/
def isMark (c : Char) : Bool :=
  c == '[' || c == ']' || c == '\x7b' || c == '\x7d' || c == ':' || c == ','

/-- What words and numbers are made of. -/
def inWord (c : Char) : Bool := !isBlank c && !isMark c && c != '"'

/-- No word goes on here. -/
def Stops (rest : List Char) : Prop := ∀ c, rest.head? = some c → inWord c = false

theorem inWord_of_isDigit {c : Char} (h : c.isDigit = true) : inWord c = true := by
  have hother : ∀ x : Char, x.isDigit = false → (c == x) = false := by
    intro x hx
    exact beq_eq_false_iff_ne.2 fun heq => by rw [heq, hx] at h; cases h
  simp [inWord, isBlank, isMark, bne, hother]

/-- Digits end where the word does. -/
theorem digits_append {rest : List Char} (hr : Stops rest) (w : List Char) :
    (w ++ rest).takeWhile Char.isDigit = w.takeWhile Char.isDigit ∧
      (w ++ rest).dropWhile Char.isDigit = w.dropWhile Char.isDigit ++ rest := by
  induction w with
  | nil =>
    cases rest with
    | nil => exact ⟨rfl, rfl⟩
    | cons c rest =>
      have hc : c.isDigit = false := by
        have := hr c rfl
        cases hd : c.isDigit with
        | false => rfl
        | true => rw [inWord_of_isDigit hd] at this; cases this
      simp [hc]
  | cons c w ih =>
    rw [List.cons_append, List.takeWhile_cons, List.takeWhile_cons, List.dropWhile_cons,
      List.dropWhile_cons, ih.1, ih.2]
    split <;> exact ⟨rfl, rfl⟩

theorem head?_append {rest : List Char} (hr : Stops rest) (w : List Char) {c : Char}
    (hc : inWord c = true) : (w ++ rest).head? = some c ↔ w.head? = some c := by
  cases w with
  | nil =>
    refine ⟨fun h => ?_, nofun⟩
    rw [hr c h] at hc
    cases hc
  | cons d w => rfl

/-- What is read off a word stops within the word or at its end, whatever follows it. -/
def Within {ε α : Type} (f : List Char → Except ε (α × List Char)) : Prop :=
  ∀ w rest, Stops rest → ∀ x left, f (w ++ rest) = .ok (x, left) →
    ∃ w', w' <:+ w ∧ left = w' ++ rest ∧
      ∀ rest', Stops rest' → f (w ++ rest') = .ok (x, w' ++ rest')

theorem Within.bind {ε α β : Type} {f : List Char → Except ε (α × List Char)}
    {g : α → List Char → Except ε (β × List Char)} (hf : Within f) (hg : ∀ a, Within (g a)) :
    Within fun cs => f cs >>= fun p => g p.1 p.2 := by
  intro w rest hr x left h
  obtain ⟨⟨a, mid⟩, ha, h⟩ := bind_eq_ok.1 h
  obtain ⟨w', hw', rfl, hf'⟩ := hf w rest hr a mid ha
  obtain ⟨w'', hw'', rfl, hg'⟩ := hg a w' rest hr x left h
  exact ⟨w'', hw''.trans hw', rfl,
    fun rest' hr' => bind_eq_ok.2 ⟨_, hf' rest' hr', hg' rest' hr'⟩⟩

theorem within_pure {ε α : Type} (a : α) :
    Within fun cs => (.ok (a, cs) : Except ε (α × List Char)) := by
  intro w rest _ x left h
  obtain ⟨rfl, rfl⟩ := Prod.mk.inj (Except.ok.inj h)
  exact ⟨w, List.suffix_refl w, rfl, fun _ _ => rfl⟩

/-! ### The parts of a number -/

/-- A zero with nothing behind it leads no digits. -/
theorem digits_of_zero_head {cs : List Char} (h : (cs.takeWhile Char.isDigit).head? = some '0')
    (hne : ∀ c r, cs ≠ '0' :: c :: r) : cs.takeWhile Char.isDigit = ['0'] := by
  cases cs with
  | nil => cases h
  | cons c cs =>
    by_cases hc : c.isDigit = true
    · obtain rfl : c = '0' := by simpa [hc] using h
      cases cs with
      | nil => rfl
      | cons d cs => exact absurd rfl (hne d cs)
    · simp [hc] at h

/-- The digits in front, if there are any and a zero among them does not lead others. -/
theorem wholePart_eq_ok_iff {cs ds left : List Char} : wholePart cs = .ok (ds, left) ↔
    ds = cs.takeWhile Char.isDigit ∧ left = cs.dropWhile Char.isDigit ∧ ds ≠ [] ∧
      (ds.head? = some '0' → ds = ['0']) := by
  unfold wholePart
  split
  · next c r =>
    cases hc : c.isDigit with
    | false =>
      have hzero : ('0' :: c :: r).takeWhile Char.isDigit = ['0'] := by simp [hc]
      have hleft : ('0' :: c :: r).dropWhile Char.isDigit = c :: r := by simp [hc]
      rw [hzero, hleft, if_neg nofun]
      constructor
      · intro h
        obtain ⟨rfl, rfl⟩ := Prod.mk.inj (Except.ok.inj h)
        exact ⟨rfl, rfl, List.cons_ne_nil _ _, fun _ => rfl⟩
      · rintro ⟨rfl, rfl, -, -⟩
        rfl
    | true =>
      have hdigits : ('0' :: c :: r).takeWhile Char.isDigit =
          '0' :: c :: r.takeWhile Char.isDigit := by simp [hc]
      rw [hdigits, if_pos rfl]
      refine ⟨nofun, ?_⟩
      rintro ⟨rfl, -, -, hlead⟩
      cases hlead rfl
  · next hne =>
    have hlead := fun h => digits_of_zero_head h hne
    dsimp only
    cases hds : cs.takeWhile Char.isDigit with
    | nil =>
      refine ⟨nofun, ?_⟩
      rintro ⟨rfl, -, hnil, -⟩
      exact absurd rfl hnil
    | cons d ds' =>
      rw [hds] at hlead
      simp only [List.isEmpty_cons, Bool.false_eq_true, if_false, Except.ok.injEq, Prod.mk.injEq]
      constructor
      · rintro ⟨rfl, rfl⟩
        exact ⟨rfl, rfl, List.cons_ne_nil _ _, hlead⟩
      · rintro ⟨rfl, rfl, -, -⟩
        exact ⟨rfl, rfl⟩

theorem fractionPart_point {r left : List Char} {o : Option (List Char)} :
    fractionPart ('.' :: r) = .ok (o, left) ↔ o = some (r.takeWhile Char.isDigit) ∧
      left = r.dropWhile Char.isDigit ∧ r.takeWhile Char.isDigit ≠ [] := by
  rw [fractionPart]
  cases r.takeWhile Char.isDigit <;> simp [eq_comm]

theorem fractionPart_of_head {cs : List Char} (h : cs.head? ≠ some '.') :
    fractionPart cs = .ok (none, cs) := by
  unfold fractionPart
  split
  · exact absurd rfl h
  · rfl

theorem powerPart_mark {c : Char} (hc : c = 'e' ∨ c = 'E') {r left : List Char}
    {o : Option (Bool × List Char)} : powerPart (c :: r) = .ok (o, left) ↔
      o = some ((powerSign r).1, (powerSign r).2.takeWhile Char.isDigit) ∧
        left = (powerSign r).2.dropWhile Char.isDigit ∧
        (powerSign r).2.takeWhile Char.isDigit ≠ [] := by
  rw [powerPart, if_pos hc]
  dsimp only
  cases (powerSign r).2.takeWhile Char.isDigit <;> simp [eq_comm]

theorem powerPart_of_head {cs : List Char} (h : cs.head? ≠ some 'e') (h' : cs.head? ≠ some 'E') :
    powerPart cs = .ok (none, cs) := by
  cases cs with
  | nil => rfl
  | cons c r =>
    rw [powerPart, if_neg]
    rintro (rfl | rfl)
    · exact h rfl
    · exact h' rfl

theorem powerSign_append {rest : List Char} (hr : Stops rest) (w : List Char) :
    powerSign (w ++ rest) = ((powerSign w).1, (powerSign w).2 ++ rest) := by
  cases w with
  | nil =>
    unfold powerSign
    split
    · next heq => exact absurd (hr '+' (by rw [← List.nil_append rest, heq]; rfl)) (by decide)
    · next heq => exact absurd (hr '-' (by rw [← List.nil_append rest, heq]; rfl)) (by decide)
    · rfl
  | cons c w =>
    unfold powerSign
    split <;> simp_all

theorem powerSign_suffix (w : List Char) : (powerSign w).2 <:+ w := by
  unfold powerSign
  split
  · exact List.suffix_cons _ _
  · exact List.suffix_cons _ _
  · exact List.suffix_refl _

theorem within_wholePart : Within wholePart := by
  intro w rest hr ds left h
  obtain ⟨hds, rfl, hne, hlead⟩ := wholePart_eq_ok_iff.1 h
  obtain ⟨htake, hdrop⟩ := digits_append hr w
  refine ⟨w.dropWhile Char.isDigit, List.dropWhile_suffix _, hdrop, fun rest' hr' => ?_⟩
  obtain ⟨htake', hdrop'⟩ := digits_append hr' w
  exact wholePart_eq_ok_iff.2 ⟨hds.trans (htake.trans htake'.symm), hdrop'.symm, hne, hlead⟩

theorem within_fractionPart : Within fractionPart := by
  intro w rest hr o left h
  by_cases hw : w.head? = some '.'
  · obtain ⟨w, rfl⟩ : ∃ w', w = '.' :: w' := by simpa [List.head?_eq_some_iff] using hw
    rw [List.cons_append] at h
    obtain ⟨rfl, rfl, hne⟩ := fractionPart_point.1 h
    obtain ⟨htake, hdrop⟩ := digits_append hr w
    refine ⟨w.dropWhile Char.isDigit, (List.dropWhile_suffix _).trans (List.suffix_cons _ _),
      hdrop, fun rest' hr' => ?_⟩
    obtain ⟨htake', hdrop'⟩ := digits_append hr' w
    rw [List.cons_append, fractionPart_point, htake', hdrop', ← htake]
    exact ⟨rfl, rfl, hne⟩
  · have hhead : ∀ rest, Stops rest → (w ++ rest).head? ≠ some '.' := fun rest hr heq =>
      hw ((head?_append hr w (by decide)).1 heq)
    rw [fractionPart_of_head (hhead rest hr)] at h
    obtain ⟨rfl, rfl⟩ := Prod.mk.inj (Except.ok.inj h)
    exact ⟨w, List.suffix_refl w, rfl, fun rest' hr' => fractionPart_of_head (hhead rest' hr')⟩

theorem within_powerPart : Within powerPart := by
  intro w rest hr o left h
  by_cases hw : w.head? = some 'e' ∨ w.head? = some 'E'
  · obtain ⟨c, w, rfl, hc⟩ : ∃ c w', w = c :: w' ∧ (c = 'e' ∨ c = 'E') := by
      rcases hw with hw | hw
      · exact ⟨'e', by simpa [List.head?_eq_some_iff] using hw⟩
      · exact ⟨'E', by simpa [List.head?_eq_some_iff] using hw⟩
    rw [List.cons_append] at h
    obtain ⟨rfl, rfl, hne⟩ := (powerPart_mark hc).1 h
    rw [powerSign_append hr w] at hne ⊢
    obtain ⟨htake, hdrop⟩ := digits_append hr (powerSign w).2
    refine ⟨(powerSign w).2.dropWhile Char.isDigit, ((List.dropWhile_suffix _).trans
      (powerSign_suffix w)).trans (List.suffix_cons _ _), hdrop, fun rest' hr' => ?_⟩
    obtain ⟨htake', hdrop'⟩ := digits_append hr' (powerSign w).2
    rw [List.cons_append, powerPart_mark hc, powerSign_append hr' w]
    dsimp only at hne ⊢
    rw [htake] at hne ⊢
    rw [htake', hdrop']
    exact ⟨rfl, rfl, hne⟩
  · have hhead : ∀ c, inWord c = true → w.head? ≠ some c → ∀ rest, Stops rest →
        (w ++ rest).head? ≠ some c :=
      fun c hc hne rest hr heq => hne ((head?_append hr w hc).1 heq)
    have hpower : ∀ rest, Stops rest → powerPart (w ++ rest) = .ok (none, w ++ rest) :=
      fun rest hr => powerPart_of_head (hhead 'e' (by decide) (fun he => hw (.inl he)) rest hr)
        (hhead 'E' (by decide) (fun he => hw (.inr he)) rest hr)
    rw [hpower rest hr] at h
    obtain ⟨rfl, rfl⟩ := Prod.mk.inj (Except.ok.inj h)
    exact ⟨w, List.suffix_refl w, rfl, hpower⟩

/-- A number behind its sign. -/
def unsigned (negative : Bool) (cs : List Char) : Except NumberFault (Numeral × List Char) :=
  wholePart cs >>= fun p => fractionPart p.2 >>= fun q => powerPart q.2 >>= fun s =>
    .ok (⟨negative, p.1, q.1, s.1⟩, s.2)

theorem numeral_minus (cs : List Char) : numeral ('-' :: cs) = unsigned true cs := rfl

theorem numeral_of_head {cs : List Char} (h : cs.head? ≠ some '-') :
    numeral cs = unsigned false cs := by
  unfold numeral
  split
  · next heq =>
    split at heq
    · exact absurd rfl h
    · obtain ⟨rfl, rfl⟩ := Prod.mk.inj heq
      rfl

theorem within_unsigned (negative : Bool) : Within (unsigned negative) :=
  within_wholePart.bind fun _ => within_fractionPart.bind fun _ => within_powerPart.bind fun _ =>
    within_pure _

theorem within_numeral : Within numeral := by
  intro w rest hr n left h
  by_cases hw : w.head? = some '-'
  · obtain ⟨w, rfl⟩ : ∃ w', w = '-' :: w' := by simpa [List.head?_eq_some_iff] using hw
    obtain ⟨w', hw', rfl, hrest⟩ := within_unsigned true w rest hr n left h
    exact ⟨w', hw'.trans (List.suffix_cons _ _), rfl, hrest⟩
  · have hnumeral : ∀ rest, Stops rest → numeral (w ++ rest) = unsigned false (w ++ rest) :=
      fun rest hr => numeral_of_head fun heq => hw ((head?_append hr w (by decide)).1 heq)
    rw [hnumeral rest hr] at h
    obtain ⟨w', hw', rfl, hrest⟩ := within_unsigned false w rest hr n left h
    exact ⟨w', hw', rfl, fun rest' hr' => (hnumeral rest' hr').trans (hrest rest' hr')⟩

/-! ### What is left -/

theorem length_dropWhile_add (cs : List Char) :
    (cs.takeWhile Char.isDigit).length + (cs.dropWhile Char.isDigit).length = cs.length := by
  rw [← List.length_append, List.takeWhile_append_dropWhile]

variable {cs left : List Char}

theorem length_of_wholePart {ds : List Char} (h : wholePart cs = .ok (ds, left)) :
    left.length < cs.length := by
  obtain ⟨rfl, rfl, hne, -⟩ := wholePart_eq_ok_iff.1 h
  have := List.length_pos_iff.2 hne
  have := length_dropWhile_add cs
  omega

theorem length_of_fractionPart {o : Option (List Char)} (h : fractionPart cs = .ok (o, left)) :
    left.length ≤ cs.length := by
  by_cases hcs : cs.head? = some '.'
  · obtain ⟨r, rfl⟩ : ∃ r, cs = '.' :: r := by simpa [List.head?_eq_some_iff] using hcs
    obtain ⟨-, rfl, -⟩ := fractionPart_point.1 h
    exact ((List.dropWhile_suffix _).trans (List.suffix_cons _ _)).length_le
  · rw [fractionPart_of_head hcs] at h
    exact Nat.le_of_eq (congrArg List.length (Prod.mk.inj (Except.ok.inj h)).2.symm)

theorem length_of_powerPart {o : Option (Bool × List Char)} (h : powerPart cs = .ok (o, left)) :
    left.length ≤ cs.length := by
  cases cs with
  | nil =>
    obtain ⟨-, rfl⟩ := Prod.mk.inj (Except.ok.inj h)
    exact Nat.le_refl _
  | cons c r =>
    by_cases hc : c = 'e' ∨ c = 'E'
    · obtain ⟨-, rfl, -⟩ := (powerPart_mark hc).1 h
      exact (((List.dropWhile_suffix _).trans (powerSign_suffix r)).trans
        (List.suffix_cons _ _)).length_le
    · rw [powerPart, if_neg hc] at h
      exact Nat.le_of_eq (congrArg List.length (Prod.mk.inj (Except.ok.inj h)).2.symm)

theorem length_of_unsigned {negative : Bool} {n : Numeral}
    (h : unsigned negative cs = .ok (n, left)) : left.length < cs.length := by
  obtain ⟨p, hp, h⟩ := bind_eq_ok.1 h
  obtain ⟨q, hq, h⟩ := bind_eq_ok.1 h
  obtain ⟨s, hs, h⟩ := bind_eq_ok.1 h
  rw [← (Prod.mk.inj (Except.ok.inj h)).2]
  exact Nat.lt_of_le_of_lt (Nat.le_trans (length_of_powerPart hs) (length_of_fractionPart hq))
    (length_of_wholePart hp)

theorem length_of_numeral {n : Numeral} (h : numeral cs = .ok (n, left)) :
    left.length < cs.length := by
  by_cases hcs : cs.head? = some '-'
  · obtain ⟨r, rfl⟩ : ∃ r, cs = '-' :: r := by simpa [List.head?_eq_some_iff] using hcs
    exact Nat.lt_succ_of_lt (length_of_unsigned (numeral_minus r ▸ h))
  · exact length_of_unsigned (numeral_of_head hcs ▸ h)

/-! ### Values that are words -/

/-- A number stops within its word, whatever follows the word. -/
theorem number_within {w rest left : List Char} {d : Datum} (hr : Stops rest)
    (h : number (w ++ rest) = (d, some left)) :
    ∃ w', w' <:+ w ∧ w'.length < w.length ∧ left = w' ++ rest ∧
      ∀ rest', Stops rest' → number (w ++ rest') = (d, some (w' ++ rest')) := by
  unfold number at h
  split at h
  · cases h
  · next n r hn =>
    obtain ⟨w', hw', rfl, hrest⟩ := within_numeral w rest hr n r hn
    have hlen := length_of_numeral hn
    simp only [List.length_append, Nat.add_lt_add_iff_right] at hlen
    split at h
    · next d' hd =>
      obtain ⟨rfl, rfl⟩ : d' = d ∧ w' ++ rest = left := by simpa using h
      refine ⟨w', hw', hlen, rfl, fun rest' hr' => ?_⟩
      rw [number, hrest rest' hr']
      dsimp only
      rw [hd]
    · next f hf =>
      obtain ⟨rfl, rfl⟩ : _ = d ∧ w' ++ rest = left := by simpa using h
      refine ⟨w', hw', hlen, rfl, fun rest' hr' => ?_⟩
      rw [number, hrest rest' hr']
      dsimp only
      rw [hf]

/-- The same of a word that stands for a value. -/
theorem word_within {es w rest left : List Char} {d d' : Datum} (hes : es.all inWord = true)
    (hr : Stops rest) (h : word d es (w ++ rest) = (d', some left)) :
    ∃ w', w' <:+ w ∧ left = w' ++ rest ∧
      ∀ rest', word d es (w ++ rest') = (d', some (w' ++ rest')) := by
  induction es generalizing w with
  | nil =>
    obtain ⟨rfl, rfl⟩ : d = d' ∧ w ++ rest = left := by simpa [word] using h
    exact ⟨w, List.suffix_refl w, rfl, fun _ => rfl⟩
  | cons e es ih =>
    obtain ⟨he, hes⟩ : inWord e = true ∧ es.all inWord = true := by simpa using hes
    cases w with
    | nil =>
      cases rest with
      | nil => cases h
      | cons c rest =>
        rw [List.nil_append, word] at h
        split at h
        · next heq =>
          rw [← heq, hr c rfl] at he
          cases he
        · cases h
    | cons c w =>
      rw [List.cons_append, word] at h
      split at h
      · next heq =>
        obtain ⟨w', hw', rfl, hrest⟩ := ih hes h
        refine ⟨w', hw'.trans (List.suffix_cons _ _), rfl, fun rest' => ?_⟩
        rw [List.cons_append, word, if_pos heq, hrest]
      · cases h

end LinkTest.Json
