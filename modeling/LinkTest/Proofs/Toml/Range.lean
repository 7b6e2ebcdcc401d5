import LinkTest.Proofs.Datum.Lookup
import LinkTest.Toml.Reader

/-!
# Whole numbers fit into 64 bits with sign

Whatever a TOML text says, no whole number in it is too large to be written again: one that would be
makes the whole text no TOML.
-/

namespace LinkTest.Toml

/-- No whole number in a datum is above the range of 64 bits with sign. -/
inductive Narrow : Datum → Prop
  | null : Narrow .null
  | boolean (b : Bool) : Narrow (.boolean b)
  | whole {n : Int} (h : n < Nat.pow 2 63) : Narrow (.whole n)
  | real (x : Binary64) : Narrow (.real x)
  | text (s : String) : Narrow (.text s)
  | list {items : List Datum} {e : Ending} (h : ∀ d ∈ items, Narrow d) : Narrow (.list items e)
  | dict {members : List (String × Datum)} {e : Ending} (h : ∀ m ∈ members, Narrow m.2) :
    Narrow (.dict members e)
  | damaged (f : Fault) (g : Option Fault) : Narrow (.damaged f g)

/-- Whatever a reader finds is narrow. -/
def ReadsNarrow (reader : Reader Datum) : Prop := ∀ cs d r, reader cs = some (d, r) → Narrow d

/-! ## Scalars -/

theorem narrow_signedDatum? {negative : Bool} {n : Nat} {d : Datum}
    (h : signedDatum? negative n = some d) : Narrow d := by
  have hpos : 0 < Nat.pow 2 63 := by decide
  unfold signedDatum? at h
  split at h
  · split at h
    · obtain rfl := Option.some.inj h
      exact .whole (by omega)
    · cases h
  · split at h
    · next hn =>
      obtain rfl := Option.some.inj h
      exact .whole (by omega)
    · cases h

theorem narrow_realDatum? {x : Binary64} {d : Datum} (h : realDatum? x = some d) : Narrow d := by
  unfold realDatum? at h
  split at h
  · cases h
  · obtain rfl := Option.some.inj h
    exact .real x

theorem readsNarrow_decimalNumber : ReadsNarrow decimalNumber := by
  intro cs d r h
  simp only [decimalNumber, Option.bind_eq_bind, Option.bind_eq_some_iff] at h
  obtain ⟨⟨whole, r₁⟩, -, ⟨parts, r₂⟩, -, ⟨exponent, r₃⟩, -, h⟩ := h
  split at h
  · obtain ⟨d', hd, heq⟩ := Option.bind_eq_some_iff.1 h
    obtain ⟨rfl, -⟩ := Prod.mk.inj (Option.some.inj heq)
    exact narrow_signedDatum? hd
  · obtain ⟨d', hd, heq⟩ := Option.bind_eq_some_iff.1 h
    obtain ⟨rfl, -⟩ := Prod.mk.inj (Option.some.inj heq)
    exact narrow_realDatum? hd

theorem readsNarrow_numberInBase (base : Nat) : ReadsNarrow (numberInBase base) := by
  intro cs d r h
  simp only [numberInBase, Option.bind_eq_bind, Option.bind_eq_some_iff] at h
  obtain ⟨⟨ds, r₁⟩, -, d', hd, heq⟩ := h
  obtain ⟨rfl, -⟩ := Prod.mk.inj (Option.some.inj heq)
  exact narrow_signedDatum? hd

theorem readsNarrow_wordNumber : ReadsNarrow wordNumber := by
  intro cs d r h
  simp only [wordNumber] at h
  split at h
  · obtain ⟨rfl, -⟩ := Prod.mk.inj (Option.some.inj h)
    exact .real _
  · obtain ⟨rfl, -⟩ := Prod.mk.inj (Option.some.inj h)
    exact .real _
  · cases h

theorem readsNarrow_number : ReadsNarrow number := by
  intro cs d r h
  unfold number at h
  split at h
  · exact readsNarrow_numberInBase 16 _ d r h
  · exact readsNarrow_numberInBase 8 _ d r h
  · exact readsNarrow_numberInBase 2 _ d r h
  · rcases Option.or_eq_some_iff.1 h with h | ⟨-, h⟩
    · exact readsNarrow_wordNumber _ d r h
    · exact readsNarrow_decimalNumber _ d r h

theorem readsNarrow_moment : ReadsNarrow moment := by
  intro cs d r h
  obtain ⟨r₁, -, h⟩ := Option.bind_eq_some_iff.1 h
  obtain ⟨rfl, -⟩ := Prod.mk.inj (Option.some.inj h)
  refine .dict fun m hm => ?_
  obtain rfl := List.mem_singleton.1 hm
  exact .text _

theorem readsNarrow_scalar : ReadsNarrow scalar := by
  intro cs d r h
  unfold scalar at h
  split at h
  · obtain ⟨rfl, -⟩ := Prod.mk.inj (Option.some.inj h)
    exact .boolean true
  · obtain ⟨rfl, -⟩ := Prod.mk.inj (Option.some.inj h)
    exact .boolean false
  · split at h
    · exact readsNarrow_moment cs d r h
    · exact readsNarrow_number cs d r h

/-! ## Trees -/

namespace Node

/-- A tree of narrow data. -/
def Narrow (n : Node) : Prop := Toml.Narrow n.datum

theorem datumMembers_eq (ms : List (String × Node)) :
    datumMembers ms = ms.map fun m => (m.1, m.2.datum) := by
  induction ms with
  | nil => rfl
  | cons m ms ih => rw [datumMembers, ih, List.map_cons]

theorem datumItems_eq (all : List Node) : datumItems all = all.map datum := by
  induction all with
  | nil => rfl
  | cons n all ih => rw [datumItems, ih, List.map_cons]

theorem narrow_dict_iff {made : Making} {ms : List (String × Node)} :
    (dict made ms).Narrow ↔ ∀ m ∈ ms, m.2.Narrow := by
  rw [Narrow, datum, datumMembers_eq]
  constructor
  · intro h m hm
    cases h with
    | dict h => exact h _ (List.mem_map_of_mem hm)
  · intro h
    refine .dict fun m hm => ?_
    obtain ⟨m', hm', rfl⟩ := List.mem_map.1 hm
    exact h m' hm'

theorem narrow_dicts_iff {all : List Node} : (dicts all).Narrow ↔ ∀ n ∈ all, n.Narrow := by
  rw [Narrow, datum, datumItems_eq]
  constructor
  · intro h n hn
    cases h with
    | list h => exact h _ (List.mem_map_of_mem hn)
  · intro h
    refine .list fun d hd => ?_
    obtain ⟨n, hn, rfl⟩ := List.mem_map.1 hd
    exact h n hn

theorem narrow_empty (made : Making) : (dict made []).Narrow := narrow_dict_iff.2 nofun

theorem narrow_of_lookup {made : Making} {ms : List (String × Node)} (h : (dict made ms).Narrow)
    {k : String} {n : Node} (hk : ms.lookup k = some n) : n.Narrow :=
  narrow_dict_iff.1 h (k, n) (mem_of_lookup hk)

theorem narrow_concat {made : Making} {ms : List (String × Node)} (h : (dict made ms).Narrow)
    {n : Node} (hn : n.Narrow) (k : String) : (dict made (ms ++ [(k, n)])).Narrow := by
  refine narrow_dict_iff.2 fun m hm => ?_
  rcases List.mem_append.1 hm with hm | hm
  · exact narrow_dict_iff.1 h m hm
  · obtain rfl := List.mem_singleton.1 hm
    exact hn

theorem narrow_replace {made : Making} {ms : List (String × Node)} (h : (dict made ms).Narrow)
    {n : Node} (hn : n.Narrow) (k : String) : (dict made (replace k n ms)).Narrow := by
  have hmem : ∀ (l : List (String × Node)), ∀ m ∈ replace k n l, m.2 = n ∨ m ∈ l := by
    intro l
    induction l with
    | nil => exact nofun
    | cons e l ih =>
      obtain ⟨j, x⟩ := e
      unfold replace
      split
      · intro m hm
        rcases List.mem_cons.1 hm with rfl | hm
        · exact .inl rfl
        · exact .inr (List.mem_cons_of_mem _ hm)
      · intro m hm
        rcases List.mem_cons.1 hm with rfl | hm
        · exact .inr List.mem_cons_self
        · exact (ih m hm).imp_right (List.mem_cons_of_mem _)
  refine narrow_dict_iff.2 fun m hm => ?_
  rcases hmem ms m hm with heq | hm
  · exact heq ▸ hn
  · exact narrow_dict_iff.1 h m hm

/-- A change of a tree brings in no number that is too large. -/
def KeepsNarrow (f : Node → Option Node) : Prop := ∀ n n', f n = some n' → n.Narrow → n'.Narrow

theorem keepsNarrow_put (long : Bool) (name : String) {d : Datum} (hd : Toml.Narrow d) :
    KeepsNarrow (put long name d) := by
  intro n n' h hn
  cases n with
  | dict made ms =>
    rw [put] at h
    split at h
    · cases h
    split at h
    · cases h
    · obtain rfl := Option.some.inj h
      exact narrow_concat hn (show (value d).Narrow from hd) name
  | _ => cases h

theorem keepsNarrow_openDict (name : String) : KeepsNarrow (openDict name) := by
  intro n n' h hn
  cases n with
  | dict made ms =>
    rw [openDict] at h
    split at h
    · obtain rfl := Option.some.inj h
      exact narrow_concat hn (narrow_empty .header) name
    · next sub hlookup =>
      obtain rfl := Option.some.inj h
      have hsub : (dict .header sub).Narrow :=
        narrow_dict_iff.2 (narrow_dict_iff.1 (narrow_of_lookup hn hlookup))
      have hkept : (dict made (ms.filter (fun m => m.1 ≠ name))).Narrow :=
        narrow_dict_iff.2 fun m hm => narrow_dict_iff.1 hn m (List.mem_filter.1 hm).1
      exact narrow_concat hkept hsub name
    · cases h
  | _ => cases h

theorem keepsNarrow_openNext (name : String) : KeepsNarrow (openNext name) := by
  have hopened : (dict .header []).Narrow := narrow_empty .header
  intro n n' h hn
  cases n with
  | dict made ms =>
    rw [openNext] at h
    split at h
    · obtain rfl := Option.some.inj h
      exact narrow_concat hn (narrow_dicts_iff.2 (List.forall_mem_singleton.2 hopened)) name
    · next all hlookup =>
      obtain rfl := Option.some.inj h
      have hall := narrow_dicts_iff.1 (narrow_of_lookup hn hlookup)
      refine narrow_replace hn (narrow_dicts_iff.2 fun n hm => ?_) name
      rcases List.mem_append.1 hm with hm | hm
      · exact hall n hm
      · exact List.mem_singleton.1 hm ▸ hopened
    · cases h
  | _ => cases h

theorem keepsNarrow_alter (keys : Bool) {f : Node → Option Node} (hf : KeepsNarrow f)
    (path : List String) : KeepsNarrow (alter keys f path) := by
  induction path with
  | nil =>
    intro n n' h hn
    rw [alter] at h
    exact hf n n' h hn
  | cons k ks ih =>
    intro n n' h hn
    cases n with
    | dict made ms =>
      rw [alter] at h
      split at h
      · obtain ⟨sub, hsub, rfl⟩ := Option.map_eq_some_iff.1 h
        exact narrow_concat hn (ih _ sub hsub (narrow_empty _)) k
      · cases h
      · next m sub hlookup =>
        split at h
        · cases h
        · obtain ⟨sub', hsub, rfl⟩ := Option.map_eq_some_iff.1 h
          exact narrow_replace hn (ih _ sub' hsub (narrow_of_lookup hn hlookup)) k
      · next all hlookup =>
        have hall := narrow_dicts_iff.1 (narrow_of_lookup hn hlookup)
        split at h
        · cases h
        · next last hlast =>
          obtain ⟨last', hlast', rfl⟩ := Option.map_eq_some_iff.1 h
          refine narrow_replace hn (narrow_dicts_iff.2 fun n hm => ?_) k
          rcases List.mem_append.1 hm with hm | hm
          · exact hall n ((List.dropLast_subset _) hm)
          · rw [List.mem_singleton.1 hm]
            exact ih last last' hlast' (hall last (List.mem_of_getLast? hlast))
    | _ => cases h

theorem keepsNarrow_add (k : Key) {d : Datum} (hd : Toml.Narrow d) : KeepsNarrow (Node.add k d) :=
  keepsNarrow_alter true (keepsNarrow_put _ _ hd) k.path

end Node

/-! ## Values and statements -/

/-- What one step of reading yields is narrow. -/
structure NarrowAt (fuel : Nat) : Prop where
  value : ∀ depth, ReadsNarrow (value fuel depth)
  items : ∀ depth cs ds r, items fuel depth cs = some (ds, r) → ∀ d ∈ ds, Narrow d
  members : ∀ depth n cs n' r, members fuel depth n cs = some (n', r) → n.Narrow → n'.Narrow

theorem narrowAt_zero : NarrowAt 0 where
  value depth cs d r h := by
    rw [value] at h
    cases h
  items depth cs ds r h := by
    rw [items] at h
    cases h
  members depth n cs n' r h := by
    rw [members] at h
    cases h

section

variable {fuel : Nat} {cs r : List Char}

theorem readsNarrow_value (h : NarrowAt fuel) (depth : Nat) :
    ReadsNarrow (value (fuel + 1) depth) := by
  intro cs d r hd
  cases cs with
  | nil =>
    rw [value] at hd
    cases hd
  | cons c cs =>
    rw [value] at hd
    split at hd
    · obtain ⟨⟨s, r'⟩, -, heq⟩ := Option.map_eq_some_iff.1 hd
      obtain ⟨rfl, -⟩ := Prod.mk.inj heq
      exact .text s
    split at hd
    · split at hd
      · obtain ⟨⟨ds, r'⟩, hds, heq⟩ := Option.map_eq_some_iff.1 hd
        obtain ⟨rfl, -⟩ := Prod.mk.inj heq
        exact .list (h.items _ _ ds r' hds)
      · cases hd
    split at hd
    · split at hd
      · split at hd
        · obtain ⟨rfl, -⟩ := Prod.mk.inj (Option.some.inj hd)
          exact Node.narrow_empty .header
        · obtain ⟨⟨n, r'⟩, hn, heq⟩ := Option.map_eq_some_iff.1 hd
          obtain ⟨rfl, -⟩ := Prod.mk.inj heq
          exact h.members _ _ _ n r' hn (Node.narrow_empty .header)
      · cases hd
    · exact readsNarrow_scalar _ d r hd

theorem narrow_items (h : NarrowAt fuel) {depth : Nat} {ds : List Datum}
    (hds : items (fuel + 1) depth cs = some (ds, r)) : ∀ d ∈ ds, Narrow d := by
  unfold items at hds
  split at hds
  · cases hds
  · obtain ⟨rfl, -⟩ := Prod.mk.inj (Option.some.inj hds)
    exact nofun
  · next heq _ =>
    obtain rfl := Nat.succ.inj heq
    obtain ⟨⟨d, r₁⟩, hd, hds⟩ := Option.bind_eq_some_iff.1 hds
    have hd' := h.value _ _ d r₁ hd
    dsimp only at hds
    split at hds
    · obtain ⟨⟨ds', r₂⟩, hds', heq⟩ := Option.bind_eq_some_iff.1 hds
      obtain ⟨rfl, -⟩ := Prod.mk.inj (Option.some.inj heq)
      exact List.forall_mem_cons.2 ⟨hd', h.items _ _ ds' r₂ hds'⟩
    · obtain ⟨rfl, -⟩ := Prod.mk.inj (Option.some.inj hds)
      exact List.forall_mem_singleton.2 hd'
    · cases hds

theorem narrow_members (h : NarrowAt fuel) {depth : Nat} {n n' : Node}
    (hn' : members (fuel + 1) depth n cs = some (n', r)) (hn : n.Narrow) : n'.Narrow := by
  unfold members at hn'
  obtain ⟨⟨k, r₁⟩, -, hn'⟩ := Option.bind_eq_some_iff.1 hn'
  obtain ⟨r₂, -, hn'⟩ := Option.bind_eq_some_iff.1 hn'
  obtain ⟨⟨d, r₃⟩, hd, hn'⟩ := Option.bind_eq_some_iff.1 hn'
  obtain ⟨n₁, hn₁, hn'⟩ := Option.bind_eq_some_iff.1 hn'
  have hadded := Node.keepsNarrow_add k (h.value _ _ d r₃ hd) n n₁ hn₁ hn
  split at hn'
  · exact h.members _ _ _ n' r hn' hadded
  · obtain ⟨rfl, -⟩ := Prod.mk.inj (Option.some.inj hn')
    exact hadded
  · cases hn'

theorem narrowAt_succ (h : NarrowAt fuel) : NarrowAt (fuel + 1) where
  value := readsNarrow_value h
  items _ _ _ _ hds := narrow_items h hds
  members _ _ _ _ _ hn' hn := narrow_members h hn' hn

end

theorem narrowAt (fuel : Nat) : NarrowAt fuel := by
  induction fuel with
  | zero => exact narrowAt_zero
  | succ fuel ih => exact narrowAt_succ ih

/-- A statement with a narrow value, if it has one. -/
def Statement.Narrow : Statement → Prop
  | .pair _ d => Toml.Narrow d
  | _ => True

theorem narrow_statement {cs r : List Char} {s : Statement} (h : statement cs = some (s, r)) :
    s.Narrow := by
  unfold statement at h
  split at h
  · obtain ⟨⟨k, r₁⟩, -, h⟩ := Option.bind_eq_some_iff.1 h
    obtain ⟨r₂, -, heq⟩ := Option.bind_eq_some_iff.1 h
    obtain ⟨rfl, -⟩ := Prod.mk.inj (Option.some.inj heq)
    trivial
  · obtain ⟨⟨k, r₁⟩, -, h⟩ := Option.bind_eq_some_iff.1 h
    obtain ⟨r₂, -, heq⟩ := Option.bind_eq_some_iff.1 h
    obtain ⟨rfl, -⟩ := Prod.mk.inj (Option.some.inj heq)
    trivial
  · obtain ⟨⟨k, r₁⟩, -, h⟩ := Option.bind_eq_some_iff.1 h
    obtain ⟨r₂, -, h⟩ := Option.bind_eq_some_iff.1 h
    obtain ⟨⟨d, r₃⟩, hd, h⟩ := Option.bind_eq_some_iff.1 h
    obtain ⟨r₄, -, heq⟩ := Option.bind_eq_some_iff.1 h
    obtain ⟨rfl, -⟩ := Prod.mk.inj (Option.some.inj heq)
    exact (narrowAt _).value _ _ d r₃ hd

theorem narrow_statements {fuel : Nat} {cs : List Char} {ss : List Statement}
    (h : statements fuel cs = some ss) : ∀ s ∈ ss, s.Narrow := by
  induction fuel generalizing cs ss with
  | zero => cases h
  | succ fuel ih =>
    unfold statements at h
    split at h
    · obtain rfl := Option.some.inj h
      exact nofun
    · split at h
      · obtain ⟨r, -, h⟩ := Option.bind_eq_some_iff.1 h
        exact ih h
      · obtain ⟨⟨s, r⟩, hs, h⟩ := Option.bind_eq_some_iff.1 h
        obtain ⟨rest, hrest, heq⟩ := Option.bind_eq_some_iff.1 h
        obtain rfl := Option.some.inj heq
        exact List.forall_mem_cons.2 ⟨narrow_statement hs, ih hrest⟩

theorem narrow_extend {t t' : Draft} {s : Statement} (h : t.extend s = some t')
    (ht : t.root.Narrow) (hs : s.Narrow) : t'.root.Narrow := by
  cases s with
  | pair k d =>
    obtain ⟨n, hn, rfl⟩ := Option.map_eq_some_iff.1 h
    exact Node.keepsNarrow_alter false (Node.keepsNarrow_add k hs) _ _ n hn ht
  | header k =>
    obtain ⟨n, hn, rfl⟩ := Option.map_eq_some_iff.1 h
    exact Node.keepsNarrow_alter false (Node.keepsNarrow_openDict k.name) _ _ n hn ht
  | repeated k =>
    obtain ⟨n, hn, rfl⟩ := Option.map_eq_some_iff.1 h
    exact Node.keepsNarrow_alter false (Node.keepsNarrow_openNext k.name) _ _ n hn ht

theorem narrow_foldlM {ss : List Statement} (hss : ∀ s ∈ ss, s.Narrow) {t t' : Draft}
    (ht : t.root.Narrow) (h : ss.foldlM Draft.extend t = some t') : t'.root.Narrow := by
  induction ss generalizing t with
  | nil =>
    obtain rfl := Option.some.inj h
    exact ht
  | cons s ss ih =>
    rw [List.foldlM_cons] at h
    obtain ⟨t₁, ht₁, h⟩ := Option.bind_eq_some_iff.1 h
    exact ih (fun s hs => hss s (List.mem_cons_of_mem _ hs))
      (narrow_extend ht₁ ht (hss s List.mem_cons_self)) h

/-- No whole number in a TOML text is read as one that is too large to be written. -/
theorem narrow_read? {s : String} {d : Datum} (h : read? s = some d) : Narrow d := by
  obtain ⟨n, hn, rfl⟩ := Option.map_eq_some_iff.1 h
  obtain ⟨ss, hss, hbuilt⟩ := Option.bind_eq_some_iff.1 hn
  obtain ⟨t, ht, rfl⟩ := Option.map_eq_some_iff.1 hbuilt
  exact narrow_foldlM (narrow_statements hss) (Node.narrow_empty .header) ht

end LinkTest.Toml
