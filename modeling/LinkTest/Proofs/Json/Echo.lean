import LinkTest.Proofs.Json.Layout

/-!
# What is written is read back

A datum that is written, without blanks or indented, is read back as its echo: the same datum, save
that numbers are what their texts stand for and what has no text has become `null`.
-/

namespace LinkTest.Json

mutual

/-- What is read back from the text of a datum. -/
def echo : Datum → Datum
  | .null => .null
  | .boolean b => .boolean b
  | .whole n => (number (toString n).toList).1
  | .real x => if x.isFinite then (number x.scientific.toList).1 else .null
  | .text s => .text s
  | .list items _ => .list (echoItems items) .strict
  | .dict members _ => .dict (echoMembers members) .strict
  | .damaged _ _ => .null

def echoItems : List Datum → List Datum
  | [] => []
  | d :: r => echo d :: echoItems r

def echoMembers : List (String × Datum) → List (String × Datum)
  | [] => []
  | (k, d) :: r => (k, echo d) :: echoMembers r

end

theorem echoMembers_eq_map (members : List (String × Datum)) :
    echoMembers members = members.map fun e => (e.1, echo e.2) := by
  induction members with
  | nil => rfl
  | cons e members ih =>
    obtain ⟨k, d⟩ := e
    rw [echoMembers, ih, List.map_cons]

theorem reads_real (x : Binary64) : Reads (echo (.real x)) (real x).toList := by
  rw [echo, real]
  split
  · next h => exact reads_number (isNumber_scientific h)
  · exact reads_null

theorem intercalate_cons (sep p : List Char) (ps : List (List Char)) :
    sep.intercalate (p :: ps) = p ++ ps.flatMap (sep ++ ·) := by
  induction ps generalizing p with
  | nil => simp [List.intercalate_singleton]
  | cons q ps ih =>
    rw [List.intercalate_cons_of_ne_nil (List.cons_ne_nil _ _), ih, List.flatMap_cons]
    simp

/-- Parts that are joined by commas and blanks, between brackets. -/
theorem toList_joined {opening closing sep : String} {o c : Char} {blanks : List Char}
    (ho : opening.toList = [o]) (hc : closing.toList = [c]) (hs : sep.toList = ',' :: blanks)
    (pre post : String) (p : String) (ps : List String) :
    (opening ++ pre ++ String.intercalate sep (p :: ps) ++ post ++ closing).toList =
      bracketed o c pre.toList blanks post.toList ((p :: ps).map String.toList) := by
  simp [String.toList_append, String.toList_intercalate, ho, hc, hs, intercalate_cons, bracketed,
    tail]

/-- The compact form of a list or dictionary. -/
theorem toList_compacted {opening closing : String} {o c : Char} (ho : opening.toList = [o])
    (hc : closing.toList = [c]) (parts : List String) :
    (opening ++ String.intercalate "," parts ++ closing).toList =
      bracketed o c [] [] [] (parts.map String.toList) := by
  cases parts with
  | nil => simp [ho, hc, bracketed]
  | cons p ps =>
    have h := toList_joined ho hc (show ",".toList = ',' :: [] from rfl) "" "" p ps
    simpa using h

mutual

theorem reads_compact : (d : Datum) → Reads (echo d) (compact d).toList
  | .null => reads_null
  | .boolean b => by
    rw [echo, compact]
    exact reads_boolean b
  | .whole n => reads_number (isNumber_toString n)
  | .real x => reads_real x
  | .text s => reads_text s
  | .list items e => by
    obtain ⟨l, hd, hcs, hl⟩ := exists_items_compact items
    have h : Reads _ (bracketed '[' ']' [] [] [] _) := 
      reads_list blanks_nil blanks_nil blanks_nil hl
    rw [hd, hcs] at h
    rw [echo, compact]
    change Reads _ ("[" ++ String.intercalate "," (compactItems items) ++ "]").toList
    rwa [toList_compacted rfl rfl]
  | .dict members e => by
    obtain ⟨l, hd, hcs, hl⟩ := exists_members_compact members
    have h : Reads _ (bracketed '\x7b' '\x7d' [] [] [] (l.map (·.text []))) :=
      reads_dict blanks_nil blanks_nil blanks_nil blanks_nil hl
    rw [hd, hcs] at h
    rw [echo, compact]
    change Reads _ ("\x7b" ++ String.intercalate "," (compactMembers members) ++ "\x7d").toList
    rwa [toList_compacted rfl rfl]
  | .damaged f g => reads_null

theorem exists_items_compact : (items : List Datum) → ∃ l : List (Datum × List Char),
    l.map (·.1) = echoItems items ∧ l.map (·.2) = (compactItems items).map String.toList ∧
      ∀ p ∈ l, Reads p.1 p.2
  | [] => ⟨[], rfl, rfl, nofun⟩
  | d :: r => by
    obtain ⟨l, hd, hcs, hl⟩ := exists_items_compact r
    have h := reads_compact d
    refine ⟨(echo d, (compact d).toList) :: l, ?_, ?_, ?_⟩
    · rw [List.map_cons, hd, echoItems]
    · rw [List.map_cons, hcs, compactItems, List.map_cons]
    · exact List.forall_mem_cons.2 ⟨h, hl⟩

theorem exists_members_compact : (members : List (String × Datum)) → ∃ l : List Entry,
    l.map (·.member) = echoMembers members ∧
      l.map (·.text []) = (compactMembers members).map String.toList ∧
      ∀ m ∈ l, Reads m.value m.spelled
  | [] => ⟨[], rfl, rfl, nofun⟩
  | (k, d) :: r => by
    obtain ⟨l, hd, hcs, hl⟩ := exists_members_compact r
    have h := reads_compact d
    refine ⟨⟨k, echo d, (compact d).toList⟩ :: l, ?_, ?_, ?_⟩
    · rw [List.map_cons, hd, echoMembers]
      rfl
    · rw [List.map_cons, hcs, compactMembers, List.map_cons]
      simp [Entry.text, member, toList_quote]
    · exact List.forall_mem_cons.2 ⟨h, hl⟩

end

/-! ## Indented -/

theorem blanks_line (width : Nat) :
    Blanks ("\n" ++ String.ofList (List.replicate width ' ')).toList := by
  intro c hc
  rw [String.toList_append] at hc
  rcases List.mem_append.1 hc with hc | hc
  · rw [List.mem_singleton.1 hc]
    rfl
  · rw [String.toList_ofList] at hc
    rw [List.eq_of_mem_replicate hc]
    rfl

/-- Parts that stand on a line each. -/
theorem toList_lines {opening closing : String} {o c : Char} (ho : opening.toList = [o])
    (hc : closing.toList = [c]) (inner outer : String) (parts : List String) :
    (if parts.isEmpty then opening ++ closing
      else opening ++ inner ++ String.intercalate ("," ++ inner) parts ++ outer ++ closing).toList =
      bracketed o c inner.toList inner.toList outer.toList (parts.map String.toList) := by
  cases parts with
  | nil => simp [ho, hc, bracketed]
  | cons p ps =>
    rw [if_neg (by simp)]
    exact toList_joined ho hc (by rw [String.toList_append]; rfl) inner outer p ps

mutual

theorem reads_indented : (depth : Nat) → (d : Datum) → Reads (echo d) (indented depth d).toList
  | depth, .null => reads_compact .null
  | depth, .boolean b => reads_compact (.boolean b)
  | depth, .whole n => reads_compact (.whole n)
  | depth, .real x => reads_compact (.real x)
  | depth, .text s => reads_compact (.text s)
  | depth, .list items e => by
    obtain ⟨l, hd, hcs, hl⟩ := exists_items_indented (depth + 1) items
    have h := reads_list (blanks_line (2 * depth + 2)) (blanks_line (2 * depth + 2))
      (blanks_line (2 * depth)) hl
    rw [hd, hcs, ← toList_lines (show "[".toList = ['['] from rfl)
      (show "]".toList = [']'] from rfl)] at h
    rw [echo, indented]
    exact h
  | depth, .dict members e => by
    obtain ⟨l, hd, hcs, hl⟩ := exists_members_indented (depth + 1) members
    have hgap : Blanks [' '] := by simp [Blanks, isBlank]
    have h := reads_dict hgap (blanks_line (2 * depth + 2)) (blanks_line (2 * depth + 2))
      (blanks_line (2 * depth)) hl
    rw [hd, hcs, ← toList_lines (show "\x7b".toList = ['\x7b'] from rfl)
      (show "\x7d".toList = ['\x7d'] from rfl)] at h
    rw [echo, indented]
    exact h
  | depth, .damaged f g => reads_compact (.damaged f g)

theorem exists_items_indented : (depth : Nat) → (items : List Datum) →
    ∃ l : List (Datum × List Char), l.map (·.1) = echoItems items ∧
      l.map (·.2) = (indentedItems depth items).map String.toList ∧ ∀ p ∈ l, Reads p.1 p.2
  | depth, [] => ⟨[], rfl, rfl, nofun⟩
  | depth, d :: r => by
    obtain ⟨l, hd, hcs, hl⟩ := exists_items_indented depth r
    have h := reads_indented depth d
    refine ⟨(echo d, (indented depth d).toList) :: l, ?_, ?_, ?_⟩
    · rw [List.map_cons, hd, echoItems]
    · rw [List.map_cons, hcs, indentedItems, List.map_cons]
    · exact List.forall_mem_cons.2 ⟨h, hl⟩

theorem exists_members_indented : (depth : Nat) → (members : List (String × Datum)) →
    ∃ l : List Entry, l.map (·.member) = echoMembers members ∧
      l.map (·.text [' ']) = (indentedMembers depth members).map String.toList ∧
      ∀ m ∈ l, Reads m.value m.spelled
  | depth, [] => ⟨[], rfl, rfl, nofun⟩
  | depth, (k, d) :: r => by
    obtain ⟨l, hd, hcs, hl⟩ := exists_members_indented depth r
    have h := reads_indented depth d
    refine ⟨⟨k, echo d, (indented depth d).toList⟩ :: l, ?_, ?_, ?_⟩
    · rw [List.map_cons, hd, echoMembers]
      rfl
    · rw [List.map_cons, hcs, indentedMembers, List.map_cons]
      simp [Entry.text, member, toList_quote]
    · exact List.forall_mem_cons.2 ⟨h, hl⟩

end

/-! ## Documents -/

theorem read_of_reads {d : Datum} {s : String} (h : Reads d s.toList) :
    read s = ⟨d, false⟩ := by
  have hv := h.value (4 * s.toList.length + 4) [] (Nat.le_add_right _ _) clear_nil
  rw [List.append_nil] at hv
  rw [read]
  dsimp only
  rw [hv]
  rfl

/-- Whatever is written without blanks is read back as its echo. -/
theorem read_compact (d : Datum) : read (compact d) = ⟨echo d, false⟩ :=
  read_of_reads (reads_compact d)

/-- The indented form says the same. -/
theorem read_pretty (d : Datum) : read (pretty d) = ⟨echo d, false⟩ :=
  read_of_reads (reads_indented 0 d)

end LinkTest.Json
