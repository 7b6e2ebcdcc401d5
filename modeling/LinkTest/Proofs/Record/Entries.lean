import LinkTest.Proofs.Datum.Lookup
import LinkTest.Record.Metrics

/-!
# Metrics are what is found under their names

Metrics are determined by what is found under each name. Of several measurements with one name the
last is found.
-/

namespace LinkTest.Metrics

/-- Entries in increasing order of their names. -/
abbrev Ascending (l : List (String × Metric)) : Prop := l.Pairwise fun a b => a.1 < b.1

theorem lookup_eq_none_of_lt {name : String} {l : List (String × Metric)}
    (h : ∀ e ∈ l, name < e.1) : l.lookup name = none := by
  rw [lookup_eq_none_iff_not_mem, List.mem_map]
  rintro ⟨e, he, rfl⟩
  exact String.lt_irrefl _ (h e he)

theorem insertEntry_of_lt {name k : String} (h : name < k) (value v : Metric)
    (l : List (String × Metric)) :
    insertEntry name value ((k, v) :: l) = (name, value) :: (k, v) :: l :=
  if_pos h

theorem insertEntry_of_gt {name k : String} (h : k < name) (value v : Metric)
    (l : List (String × Metric)) :
    insertEntry name value ((k, v) :: l) = (k, v) :: insertEntry name value l := by
  rw [insertEntry, if_neg (String.lt_asymm h), if_pos h]

theorem lookup_insertEntry (name : String) (value : Metric) {l : List (String × Metric)}
    (h : Ascending l) (other : String) :
    (insertEntry name value l).lookup other =
      if other = name then some value else l.lookup other := by
  induction l with
  | nil => exact lookup_cons_eq _ _ _ _
  | cons e l ih =>
    obtain ⟨k, v⟩ := e
    obtain ⟨hk, hl⟩ := List.pairwise_cons.1 h
    unfold insertEntry
    split
    · exact lookup_cons_eq _ _ _ _
    · next hlt =>
      split
      · next hgt =>
        rw [lookup_cons_eq, lookup_cons_eq, ih hl]
        by_cases ho : other = name
        · have hne : other ≠ k := fun he => String.lt_irrefl _ (ho ▸ he ▸ hgt)
          rw [if_neg hne, if_pos ho, if_pos ho]
        · rw [if_neg ho, if_neg ho]
      · next hgt =>
        obtain rfl : name = k := String.le_antisymm (String.not_lt.1 hgt) (String.not_lt.1 hlt)
        rw [lookup_cons_eq, lookup_cons_eq]
        split <;> rfl

theorem get?_insert (m : Metrics) (name : String) (value : Metric) (other : String) :
    (m.insert name value).get? other = if other = name then some value else m.get? other :=
  lookup_insertEntry name value m.sorted other

@[simp] theorem get?_empty (name : String) : empty.get? name = none := rfl

/-- Of two measurements with one name the later wins. -/
theorem get?_ofList (l : List (String × Metric)) (name : String) :
    (ofList l).get? name = l.reverse.lookup name := by
  have hfold : ∀ m : Metrics, (l.foldl (fun m e => m.insert e.1 e.2) m).get? name =
      (l.reverse.lookup name).or (m.get? name) := by
    induction l with
    | nil => exact fun m => rfl
    | cons e l ih =>
      intro m
      rw [List.foldl_cons, ih, get?_insert, List.reverse_cons, List.lookup_append, lookup_cons_eq,
        List.lookup_nil, Option.or_assoc]
      split <;> rfl
  exact (hfold empty).trans (by rw [get?_empty, Option.or_none])

theorem entries_eq_of_lookup {l l' : List (String × Metric)} (h : Ascending l) (h' : Ascending l')
    (hlookup : ∀ name, l.lookup name = l'.lookup name) : l = l' := by
  induction l generalizing l' with
  | nil =>
    cases l' with
    | nil => rfl
    | cons e l' =>
      obtain ⟨k, v⟩ := e
      simpa [lookup_cons_eq] using hlookup k
  | cons e l ih =>
    obtain ⟨k, v⟩ := e
    cases l' with
    | nil => simpa [lookup_cons_eq] using hlookup k
    | cons e' l' =>
      obtain ⟨k', v'⟩ := e'
      obtain ⟨hk, hl⟩ := List.pairwise_cons.1 h
      obtain ⟨hk', hl'⟩ := List.pairwise_cons.1 h'
      -- The first names agree, since a name below all others is not found among them.
      have hle : ∀ {k k' : String} {v v' : Metric} {l l' : List (String × Metric)},
          (∀ e ∈ l', k' < e.1) → ((k, v) :: l).lookup k = ((k', v') :: l').lookup k → ¬ k < k' := by
        intro k k' v v' l l' hk' he hlt
        have hnone : ((k', v') :: l').lookup k = none := lookup_eq_none_of_lt fun e he =>
          (List.mem_cons.1 he).elim (fun h => h ▸ hlt) fun he => String.lt_trans hlt (hk' e he)
        rw [hnone, lookup_cons_eq, if_pos rfl] at he
        cases he
      obtain rfl : k = k' := String.le_antisymm
        (String.not_lt.1 (hle hk (hlookup k').symm)) (String.not_lt.1 (hle hk' (hlookup k)))
      obtain rfl : v = v' := by simpa [lookup_cons_eq] using hlookup k
      rw [ih hl hl' fun name => ?_]
      by_cases hn : name = k
      · rw [hn, lookup_eq_none_of_lt hk, lookup_eq_none_of_lt hk']
      · simpa [lookup_cons_eq, hn] using hlookup name

/-- Metrics with the same measurements are the same. -/
theorem ext_get? {m m' : Metrics} (h : ∀ name, m.get? name = m'.get? name) : m = m' := by
  obtain ⟨l, hl⟩ := m
  obtain ⟨l', hl'⟩ := m'
  obtain rfl : l = l' := entries_eq_of_lookup hl hl' h
  rfl

/-- In metrics each name occurs once. -/
theorem count_names (m : Metrics) (name : String) : (m.entries.map (·.1)).count name ≤ 1 := by
  refine List.nodup_iff_count.1 ?_ name
  rw [List.nodup_iff_pairwise_ne, List.pairwise_map]
  refine m.sorted.imp fun {a b} h heq => ?_
  rw [heq] at h
  exact String.lt_irrefl _ h

end LinkTest.Metrics
