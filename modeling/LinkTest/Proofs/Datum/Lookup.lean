/-!
# Looking up names

What is found under a name that occurs once at most is the same from either end.
-/

namespace LinkTest

variable {α β : Type} {l : List (String × α)} {name : String}

theorem lookup_cons_eq (name k : String) (x : α) (l : List (String × α)) :
    ((k, x) :: l).lookup name = if name = k then some x else l.lookup name := by
  rw [List.lookup_cons]
  split
  · next h => rw [if_pos (by simpa using h)]
  · next h => rw [if_neg (by simpa using h)]

theorem mem_of_lookup {x : α} (h : l.lookup name = some x) : (name, x) ∈ l := by
  induction l with
  | nil => cases h
  | cons e l ih =>
    rw [lookup_cons_eq] at h
    split at h
    · next heq =>
      obtain rfl := Option.some.inj h
      subst heq
      exact List.mem_cons_self
    · exact List.mem_cons_of_mem _ (ih h)

theorem lookup_eq_some_iff (h : (l.map (·.1)).count name ≤ 1) {x : α} :
    l.lookup name = some x ↔ (name, x) ∈ l := by
  refine ⟨mem_of_lookup, fun hm => ?_⟩
  induction l with
  | nil => cases hm
  | cons e l ih =>
    obtain ⟨k, y⟩ := e
    rw [List.map_cons, List.count_cons] at h
    rw [lookup_cons_eq]
    rcases List.mem_cons.1 hm with heq | hm
    · obtain ⟨rfl, rfl⟩ := Prod.mk.inj heq
      rw [if_pos rfl]
    · have hpos : 0 < (l.map (·.1)).count name :=
        List.count_pos_iff.2 (List.mem_map.2 ⟨_, hm, rfl⟩)
      have hne : name ≠ k := by
        rintro rfl
        simp at h
        omega
      rw [if_neg hne]
      exact ih (by omega) hm

theorem lookup_eq_none_iff_not_mem : l.lookup name = none ↔ name ∉ l.map (·.1) := by
  rw [List.lookup_eq_none_iff]
  simp only [List.mem_map, not_exists, not_and]
  exact ⟨fun h e he heq => by simpa [heq] using h e he,
    fun h e he => by simpa using fun heq : name = e.1 => h e he heq.symm⟩

theorem lookup_reverse (h : (l.map (·.1)).count name ≤ 1) :
    l.reverse.lookup name = l.lookup name := by
  have hr : (l.reverse.map (·.1)).count name ≤ 1 := by
    rwa [List.map_reverse, List.count_reverse]
  refine Option.ext fun x => ?_
  rw [lookup_eq_some_iff h, lookup_eq_some_iff hr, List.mem_reverse]

theorem lookup_map (f : α → β) (l : List (String × α)) (name : String) :
    (l.map fun e => (e.1, f e.2)).lookup name = (l.lookup name).map f := by
  induction l with
  | nil => rfl
  | cons e l ih =>
    rw [List.map_cons, lookup_cons_eq, lookup_cons_eq, ih]
    split <;> rfl

end LinkTest
