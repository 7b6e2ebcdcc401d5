import LinkTest.Proofs.Json.Numerals
import LinkTest.Proofs.Json.Passages
import LinkTest.Proofs.Json.Texts

/-!
# Layouts of JSON text

Between the parts of a list or dictionary there may be blanks. However they are laid out, lists and
dictionaries are read back if their parts are.
-/

namespace LinkTest.Json

/-- Blanks and nothing else. -/
def Blanks (b : List Char) : Prop := ∀ c ∈ b, isBlank c = true

theorem blanks_nil : Blanks [] := nofun

/-- These characters are read as this datum, and what follows them is left. -/
structure Reads (d : Datum) (cs : List Char) : Prop where
  head : ∃ c r, cs = c :: r ∧ isBlank c = false ∧ c ≠ ']'
  value : ∀ fuel rest, 4 * cs.length ≤ fuel → Clear rest → value fuel (cs ++ rest) = (d, some rest)

/-- The parts behind the first one, up to the closing bracket. -/
def tail (close : Char) (sep post : List Char) (parts : List (List Char)) : List Char :=
  parts.flatMap (fun p => ',' :: (sep ++ p)) ++ (post ++ [close])

/-- Parts between brackets: blanks stand before the first, after each comma and behind the last. -/
def bracketed (opening close : Char) (pre sep post : List Char) : List (List Char) → List Char
  | [] => [opening, close]
  | p :: ps => opening :: (pre ++ (p ++ tail close sep post ps))

theorem skipBlanks_append {b : List Char} (h : Blanks b) (cs : List Char) :
    skipBlanks (b ++ cs) = skipBlanks cs :=
  List.dropWhile_append_of_pos h

theorem skipBlanks_cons {c : Char} (h : isBlank c = false) (r : List Char) :
    skipBlanks (c :: r) = c :: r := by
  simp [skipBlanks, h]

theorem value_blanks {b : List Char} (h : Blanks b) (fuel : Nat) (cs : List Char) :
    value fuel (b ++ cs) = value fuel cs := by
  cases fuel with
  | zero => rfl
  | succ fuel => rw [value, value, skipBlanks_append h]

theorem clear_of_blank {c : Char} (h : isBlank c = true) :
    c.isDigit = false ∧ c ≠ '.' ∧ c ≠ 'e' ∧ c ≠ 'E' := by
  simp only [isBlank, Bool.or_eq_true, beq_iff_eq] at h
  rcases h with ((rfl | rfl) | rfl) | rfl <;> decide

variable {close : Char} {sep post pre : List Char} {parts : List (List Char)}

theorem tail_nil : tail close sep post [] = post ++ [close] := rfl

theorem tail_cons (p : List Char) (parts : List (List Char)) :
    tail close sep post (p :: parts) = ',' :: (sep ++ (p ++ tail close sep post parts)) := by
  simp [tail]

theorem clear_tail (hpost : Blanks post)
    (hclose : close.isDigit = false ∧ close ≠ '.' ∧ close ≠ 'e' ∧ close ≠ 'E') (rest : List Char) :
    Clear (tail close sep post parts ++ rest) := by
  cases parts with
  | nil =>
    cases post with
    | nil => exact clear_cons hclose _
    | cons c post => exact clear_cons (clear_of_blank (hpost c List.mem_cons_self)) _
  | cons p parts =>
    rw [tail_cons]
    exact clear_cons (by decide) _

theorem skipBlanks_closing (hpost : Blanks post) (hclose : isBlank close = false)
    (rest : List Char) : skipBlanks (post ++ [close] ++ rest) = close :: rest := by
  rw [List.append_assoc, skipBlanks_append hpost]
  exact skipBlanks_cons hclose rest

theorem leads_first {c : Char} (hpre : Blanks pre) (hblank : isBlank c = false) (hc : c ≠ close)
    (r : List Char) : Leads close true (pre ++ c :: r) (c :: r) :=
  .first (by rw [skipBlanks_append hpre, skipBlanks_cons hblank]) hc

theorem leads_further {c : Char} (hsep : Blanks sep) (hblank : isBlank c = false) (hc : c ≠ close)
    (r : List Char) : Leads close false (',' :: (sep ++ c :: r)) (c :: r) :=
  .further (skipBlanks_cons (by decide) _)
    (by rw [skipBlanks_append hsep, skipBlanks_cons hblank]) hc

/-! ## Lists -/

variable {d : Datum} {cs rest : List Char} {fuel : Nat}

theorem itemThen_of_reads (h : Reads d cs) (hf : 4 * cs.length ≤ fuel) (hr : Clear rest)
    {ds : List Datum} {e : Ending} {r : Rest} (hi : items fuel false rest = (ds, e, r)) :
    itemThen (fuel + 1) (cs ++ rest) = (d :: ds, e, r) := by
  rw [itemThen, h.value fuel rest hf hr]
  dsimp only
  rw [hi]

theorem items_tail (hsep : Blanks sep) (hpost : Blanks post) {l : List (Datum × List Char)}
    (hl : ∀ p ∈ l, Reads p.1 p.2) (rest : List Char) {fuel : Nat}
    (hf : 4 * (tail ']' sep post (l.map (·.2))).length ≤ fuel) :
    items fuel false (tail ']' sep post (l.map (·.2)) ++ rest) =
      (l.map (·.1), .strict, some rest) := by
  induction l generalizing fuel with
  | nil =>
    rw [List.map_nil, tail_nil] at hf ⊢
    obtain ⟨fuel, rfl⟩ : ∃ k, fuel = k + 1 := ⟨fuel - 1, by simp at hf; omega⟩
    exact items_closed (skipBlanks_closing hpost (by decide) rest) fuel false
  | cons p l ih =>
    have hp := hl p List.mem_cons_self
    obtain ⟨c, r, hcs, hblank, hc⟩ := hp.head
    simp only [List.map_cons, tail_cons, List.length_cons, List.length_append] at hf ⊢
    obtain ⟨fuel, rfl⟩ : ∃ k, fuel = k + 2 := ⟨fuel - 2, by omega⟩
    have hi := ih (fun p hp => hl p (List.mem_cons_of_mem _ hp))
      (show 4 * (tail ']' sep post (l.map (·.2))).length ≤ fuel by omega)
    have hthen := itemThen_of_reads hp (by omega) (clear_tail hpost (by decide) rest) hi
    rw [hcs, List.cons_append] at hthen
    rw [List.cons_append, List.append_assoc, List.append_assoc, hcs, List.cons_append,
      items_of_leads (leads_further hsep hblank hc _), hthen]

/-- A list is read back from any layout of its items. -/
theorem reads_list (hpre : Blanks pre) (hsep : Blanks sep) (hpost : Blanks post)
    {l : List (Datum × List Char)} (hl : ∀ p ∈ l, Reads p.1 p.2) :
    Reads (.list (l.map (·.1)) .strict) (bracketed '[' ']' pre sep post (l.map (·.2))) := by
  have hitems : ∀ rest fuel, 4 * (bracketed '[' ']' pre sep post (l.map (·.2))).length ≤ fuel + 1 →
      ∃ r, bracketed '[' ']' pre sep post (l.map (·.2)) = '[' :: r ∧
        items fuel true (r ++ rest) = (l.map (·.1), .strict, some rest) := by
    intro rest fuel hf
    cases l with
    | nil =>
      obtain ⟨fuel, rfl⟩ : ∃ k, fuel = k + 1 := ⟨fuel - 1, by simp [bracketed] at hf; omega⟩
      exact ⟨[']'], rfl, items_closed (skipBlanks_cons (by decide) rest) fuel true⟩
    | cons p l =>
      have hp := hl p List.mem_cons_self
      obtain ⟨c, r, hcs, hblank, hc⟩ := hp.head
      simp only [List.map_cons, bracketed, List.length_cons, List.length_append] at hf ⊢
      obtain ⟨fuel, rfl⟩ : ∃ k, fuel = k + 2 := ⟨fuel - 2, by omega⟩
      have hi := items_tail hsep hpost (fun p hp => hl p (List.mem_cons_of_mem _ hp)) rest
        (show 4 * (tail ']' sep post (l.map (·.2))).length ≤ fuel by omega)
      have hthen := itemThen_of_reads hp (by omega) (clear_tail hpost (by decide) rest) hi
      rw [hcs, List.cons_append] at hthen
      refine ⟨_, rfl, ?_⟩
      rw [List.append_assoc, List.append_assoc, hcs, List.cons_append,
        items_of_leads (leads_first hpre hblank hc _), hthen]
  constructor
  · obtain ⟨r, hr, -⟩ := hitems [] _ (Nat.le_succ _)
    exact ⟨'[', r, hr, by decide, by decide⟩
  · intro fuel rest hf _
    obtain ⟨fuel, rfl⟩ : ∃ k, fuel = k + 1 := by
      obtain ⟨r, hr, -⟩ := hitems [] _ (Nat.le_succ _)
      rw [hr] at hf
      exact ⟨fuel - 1, by simp at hf; omega⟩
    obtain ⟨r, hr, hi⟩ := hitems rest fuel hf
    rw [hr, List.cons_append, value, skipBlanks_cons (by decide)]
    dsimp only
    rw [if_pos rfl, hi]

/-! ## Dictionaries -/

/-- A member: its key, a colon and, behind a gap, its value. -/
def member (gap : List Char) (k : String) (cs : List Char) : List Char :=
  '"' :: (escapedText k.toList ++ '"' :: ':' :: (gap ++ cs))

/-- A member's key, its value, and how the value is spelled. -/
structure Entry where
  key : String
  value : Datum
  spelled : List Char

def Entry.text (gap : List Char) (m : Entry) : List Char := member gap m.key m.spelled

def Entry.member (m : Entry) : String × Datum := (m.key, m.value)

variable {gap : List Char} {m : Entry} {l : List Entry}

theorem Entry.text_append (gap : List Char) (m : Entry) (r : List Char) :
    m.text gap ++ r =
      '"' :: (escapedText m.key.toList ++ '"' :: ':' :: (gap ++ (m.spelled ++ r))) := by
  simp [Entry.text, Json.member]

theorem Entry.length_text (gap : List Char) (m : Entry) :
    m.spelled.length < (m.text gap).length := by
  simp only [Entry.text, Json.member, List.length_cons, List.length_append]
  omega

theorem memberThen_of_reads (hgap : Blanks gap) (h : Reads m.value m.spelled)
    (hf : 4 * m.spelled.length ≤ fuel) (hr : Clear rest) {ms : List (String × Datum)} {e : Ending}
    {r : Rest} (hi : members fuel false rest = (ms, e, r)) :
    memberThen (fuel + 1)
      (escapedText m.key.toList ++ '"' :: ':' :: (gap ++ (m.spelled ++ rest))) =
      (m.member :: ms, e, r) := by
  rw [memberThen, textToken_escapedText]
  dsimp only
  rw [skipBlanks_cons (by decide)]
  dsimp only
  rw [if_pos rfl, value_blanks hgap, h.value fuel rest hf hr]
  dsimp only
  rw [hi]
  rfl

theorem members_tail (hgap : Blanks gap) (hsep : Blanks sep) (hpost : Blanks post)
    (hl : ∀ m ∈ l, Reads m.value m.spelled) (rest : List Char) {fuel : Nat}
    (hf : 4 * (tail '\x7d' sep post (l.map (·.text gap))).length ≤ fuel) :
    members fuel false (tail '\x7d' sep post (l.map (·.text gap)) ++ rest) =
      (l.map (·.member), .strict, some rest) := by
  induction l generalizing fuel with
  | nil =>
    rw [List.map_nil, tail_nil] at hf ⊢
    obtain ⟨fuel, rfl⟩ : ∃ k, fuel = k + 1 := ⟨fuel - 1, by simp at hf; omega⟩
    exact members_closed (skipBlanks_closing hpost (by decide) rest) fuel false
  | cons m l ih =>
    have hlen := m.length_text gap
    simp only [List.map_cons, tail_cons, List.length_cons, List.length_append] at hf ⊢
    obtain ⟨fuel, rfl⟩ : ∃ k, fuel = k + 2 := ⟨fuel - 2, by omega⟩
    have hi := ih (fun m hm => hl m (List.mem_cons_of_mem _ hm))
      (show 4 * (tail '\x7d' sep post (l.map (·.text gap))).length ≤ fuel by omega)
    have hthen := memberThen_of_reads hgap (hl m List.mem_cons_self)
      (show 4 * m.spelled.length ≤ fuel by omega) (clear_tail hpost (by decide) rest) hi
    rw [List.cons_append, List.append_assoc, List.append_assoc, m.text_append,
      members_of_leads (leads_further hsep (by decide) (by decide) _), hthen]

/-- A dictionary is read back from any layout of its members. -/
theorem reads_dict (hgap : Blanks gap) (hpre : Blanks pre) (hsep : Blanks sep) (hpost : Blanks post)
    (hl : ∀ m ∈ l, Reads m.value m.spelled) :
    Reads (.dict (l.map (·.member)) .strict)
      (bracketed '\x7b' '\x7d' pre sep post (l.map (·.text gap))) := by
  have hmembers : ∀ rest fuel,
      4 * (bracketed '\x7b' '\x7d' pre sep post (l.map (·.text gap))).length ≤ fuel + 1 →
      ∃ r, bracketed '\x7b' '\x7d' pre sep post (l.map (·.text gap)) = '\x7b' :: r ∧
        members fuel true (r ++ rest) = (l.map (·.member), .strict, some rest) := by
    intro rest fuel hf
    cases l with
    | nil =>
      obtain ⟨fuel, rfl⟩ : ∃ k, fuel = k + 1 := ⟨fuel - 1, by simp [bracketed] at hf; omega⟩
      exact ⟨['\x7d'], rfl, members_closed (skipBlanks_cons (by decide) rest) fuel true⟩
    | cons m l =>
      have hlen := m.length_text gap
      simp only [List.map_cons, bracketed, List.length_cons, List.length_append] at hf ⊢
      obtain ⟨fuel, rfl⟩ : ∃ k, fuel = k + 2 := ⟨fuel - 2, by omega⟩
      have hi := members_tail hgap hsep hpost (fun m hm => hl m (List.mem_cons_of_mem _ hm)) rest
        (show 4 * (tail '\x7d' sep post (l.map (·.text gap))).length ≤ fuel by omega)
      have hthen := memberThen_of_reads hgap (hl m List.mem_cons_self)
        (show 4 * m.spelled.length ≤ fuel by omega) (clear_tail hpost (by decide) rest) hi
      refine ⟨_, rfl, ?_⟩
      rw [List.append_assoc, List.append_assoc, m.text_append,
        members_of_leads (leads_first hpre (by decide) (by decide) _), hthen]
  constructor
  · obtain ⟨r, hr, -⟩ := hmembers [] _ (Nat.le_succ _)
    exact ⟨'\x7b', r, hr, by decide, by decide⟩
  · intro fuel rest hf _
    obtain ⟨fuel, rfl⟩ : ∃ k, fuel = k + 1 := by
      obtain ⟨r, hr, -⟩ := hmembers [] _ (Nat.le_succ _)
      rw [hr] at hf
      exact ⟨fuel - 1, by simp at hf; omega⟩
    obtain ⟨r, hr, hi⟩ := hmembers rest fuel hf
    rw [hr, List.cons_append, value, skipBlanks_cons (by decide)]
    dsimp only
    rw [if_neg (by decide), if_pos rfl, hi]

/-! ## Single values -/

/-- A value that stands before something else, from its first character on. -/
theorem reads_of_value {c : Char} {r : List Char} (hblank : isBlank c = false) (hc : c ≠ ']')
    (h : ∀ fuel rest, Clear rest → value (fuel + 1) (c :: (r ++ rest)) = (d, some rest)) :
    Reads d (c :: r) := by
  refine ⟨⟨c, r, rfl, hblank, hc⟩, fun fuel rest hf hr => ?_⟩
  obtain ⟨fuel, rfl⟩ : ∃ k, fuel = k + 1 := ⟨fuel - 1, by simp at hf; omega⟩
  exact h fuel rest hr

theorem reads_null : Reads .null "null".toList :=
  reads_of_value (by decide) (by decide) fun _ _ _ => rfl

theorem reads_boolean (b : Bool) : Reads (.boolean b) (if b then "true" else "false").toList := by
  cases b with
  | true => exact reads_of_value (by decide) (by decide) fun _ _ _ => rfl
  | false => exact reads_of_value (by decide) (by decide) fun _ _ _ => rfl

theorem reads_text (s : String) : Reads (.text s) (quote s).toList := by
  rw [toList_quote]
  refine reads_of_value (by decide) (by decide) fun fuel rest _ => ?_
  rw [value, skipBlanks_cons (by decide)]
  dsimp only
  rw [if_neg (by decide), if_neg (by decide), if_pos rfl, List.append_assoc, List.singleton_append,
    text, textToken_escapedText]

theorem number_append {n : Numeral} (h : n.Proper) {rest : List Char} (hr : Clear rest) :
    number (n.spelled ++ rest) = ((number n.spelled).1, some rest) := by
  have hnil := numeral_spelled h clear_nil
  rw [List.append_nil] at hnil
  rw [number, number, numeral_spelled h hr, hnil]
  dsimp only
  cases n.datum <;> rfl

/-- A number is read as what it stands for by itself. -/
theorem reads_number {cs : List Char} (h : IsNumber cs) : Reads (number cs).1 cs := by
  obtain ⟨n, hn, rfl⟩ := h
  obtain ⟨c, r, hcs, hc⟩ := spelled_head n hn
  have hother : ∀ x : Char, x ≠ '-' → x.isDigit = false → c ≠ x := by
    rintro x hx hd rfl
    rcases hc with hc | hc
    · exact hx hc
    · cases hd.symm.trans hc
  have hblank : isBlank c = false := by
    have h := fun x hx hd => beq_eq_false_iff_ne.2 (hother x hx hd)
    rw [isBlank, h ' ' (by decide) (by decide), h '\n' (by decide) (by decide),
      h '\t' (by decide) (by decide), h '\r' (by decide) (by decide)]
    rfl
  rw [hcs]
  refine reads_of_value hblank (hother ']' (by decide) (by decide)) fun fuel rest hr => ?_
  have hnumber := number_append hn hr
  rw [hcs, List.cons_append] at hnumber
  rw [value, skipBlanks_cons hblank]
  dsimp only
  rw [if_neg (hother '[' (by decide) (by decide)), if_neg (hother '\x7b' (by decide) (by decide)),
    if_neg (hother '"' (by decide) (by decide)), if_pos hc, hnumber]

end LinkTest.Json
