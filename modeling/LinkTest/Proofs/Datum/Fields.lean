import LinkTest.Datum.Decoder
import LinkTest.Proofs.Datum.Lookup

/-!
# What the fields of a record are read from

The fields of a record are found in a dictionary under their names, each once at most, or in a list
in their order. They are read if all that are there fit, and those that must be there are.
-/

namespace LinkTest

theorem bind_eq_ok {ε α β : Type} {x : Except ε α} {f : α → Except ε β} {y : β} :
    x >>= f = .ok y ↔ ∃ a, x = .ok a ∧ f a = .ok y := by
  cases x with
  | error e => exact ⟨nofun, fun ⟨_, h, _⟩ => by cases h⟩
  | ok a => exact ⟨fun h => ⟨a, rfl, h⟩, fun ⟨_, h, h'⟩ => by cases h; exact h'⟩

theorem mapError_eq_ok {ε ε' α : Type} {x : Except ε α} {f : ε → ε'} {y : α} :
    x.mapError f = .ok y ↔ x = .ok y := by
  cases x with
  | error e => exact ⟨fun h => (by cases h), fun h => (by cases h)⟩
  | ok a => exact ⟨fun h => congrArg _ (Except.ok.inj h), fun h => congrArg _ (Except.ok.inj h)⟩

theorem eq_ok_of_toOption {ε α : Type} {e : Except ε α} {x : α} (h : e.toOption = some x) :
    e = .ok x := by
  cases e with
  | ok y => exact congrArg Except.ok (Option.some.inj h)
  | error f => cases h

namespace Decoder

/-- The parts of a datum by their names. A dictionary has none of them twice, and what else it holds
can be passed over. -/
inductive Parts (names : List String) : Datum → Found → Prop
  | dict {members : List (String × Datum)} {e : Ending} (closed : e.readFault = none)
    (once : ∀ name ∈ names, (members.map (·.1)).count name ≤ 1)
    (passable : ∀ k d, (k, d) ∈ members → k ∉ names → d.skipFault = none) :
    Parts names (.dict members e) fun name => members.lookup name
  | list {items : List Datum} {e : Ending} (closed : e.readFault = none)
    (fits : e = .strict → items.length ≤ names.length) :
    Parts names (.list items e) fun name => (names.zip items).lookup name

/-- The parts that are there fit, and those that must be there are. -/
structure Fit (fs : List Field) (found : Found) : Prop where
  check : ∀ f ∈ fs, ∀ d, found f.name = some d → f.check d = .ok ()
  present : ∀ f ∈ fs, f.absence ≠ .filled → (found f.name).isSome

theorem closing_eq_ok_iff {e : Ending} : closing e = .ok () ↔ e.readFault = none := by
  unfold closing
  cases e.readFault <;> simp

/-! ## Dictionaries -/

theorem index_eq_of_name {fs : List Field} (hn : (fs.map (·.name)).Nodup) {i j : Nat}
    (hi : i < fs.length) (hj : j < fs.length) (h : fs[i].name = fs[j].name) : i = j := by
  refine (@List.getElem_inj _ _ _ _ (by simpa) (by simpa) hn).1 ?_
  simpa using h

theorem eq_of_find? {fs : List Field} (hn : (fs.map (·.name)).Nodup) {k : String} {field f : Field}
    (h : fs.find? (·.name == k) = some field) (hf : f ∈ fs) (hk : f.name = k) : f = field := by
  have hname : field.name = k := by simpa using List.find?_some h
  obtain ⟨i, hi, rfl⟩ := List.mem_iff_getElem.1 hf
  obtain ⟨j, hj, rfl⟩ := List.mem_iff_getElem.1 (List.mem_of_find?_eq_some h)
  obtain rfl := index_eq_of_name hn hi hj (hk.trans hname.symm)
  rfl

/-- Members are accepted behind some that have been seen. -/
structure Accepted (fs : List Field) (seen : List String) (members : List (String × Datum)) :
    Prop where
  passable : ∀ k d, (k, d) ∈ members → k ∉ fs.map (·.name) → d.skipFault = none
  check : ∀ f ∈ fs, ∀ d, (f.name, d) ∈ members → f.check d = .ok ()
  once : ∀ name ∈ fs.map (·.name), (members.map (·.1)).count name ≤ if name ∈ seen then 0 else 1

variable {fs : List Field} {seen : List String} {members : List (String × Datum)} {k : String}
  {d : Datum}

theorem accepted_nil : Accepted fs seen [] := ⟨nofun, nofun, by simp⟩

/-- What is accepted behind a name is accepted without it as well. -/
theorem Accepted.of_cons (h : Accepted fs (k :: seen) members) : Accepted fs seen members := by
  refine ⟨h.passable, h.check, fun name hm => Nat.le_trans (h.once name hm) ?_⟩
  by_cases hs : name ∈ seen
  · simp [hs]
  · rw [if_neg hs]
    split <;> decide

theorem accepted_cons_of_unknown (hk : k ∉ fs.map (·.name)) :
    Accepted fs seen ((k, d) :: members) ↔ d.skipFault = none ∧ Accepted fs seen members := by
  have hne : ∀ name ∈ fs.map (·.name), k ≠ name := fun name hm h => hk (h ▸ hm)
  constructor
  · rintro ⟨hp, hc, ho⟩
    refine ⟨hp k d List.mem_cons_self hk, fun k' d' hm => hp k' d' (List.mem_cons_of_mem _ hm),
      fun f hf d' hm => hc f hf d' (List.mem_cons_of_mem _ hm), fun name hm => ?_⟩
    have h := ho name hm
    rwa [List.map_cons, List.count_cons_of_ne (hne name hm)] at h
  · rintro ⟨hd, hp, hc, ho⟩
    refine ⟨fun k' d' hm hk' => ?_, fun f hf d' hm => ?_, fun name hm => ?_⟩
    · rcases List.mem_cons.1 hm with heq | hm
      · obtain ⟨rfl, rfl⟩ := Prod.mk.inj heq
        exact hd
      · exact hp k' d' hm hk'
    · rcases List.mem_cons.1 hm with heq | hm
      · exact absurd (Prod.mk.inj heq).1.symm (hne _ (List.mem_map_of_mem hf))
      · exact hc f hf d' hm
    · rw [List.map_cons, List.count_cons_of_ne (hne name hm)]
      exact ho name hm

theorem accepted_cons_of_known {field : Field} (hn : (fs.map (·.name)).Nodup)
    (hfind : fs.find? (·.name == k) = some field) :
    Accepted fs seen ((k, d) :: members) ↔
      k ∉ seen ∧ field.check d = .ok () ∧ Accepted fs (k :: seen) members := by
  have hname : field.name = k := by simpa using List.find?_some hfind
  have hmem := List.mem_of_find?_eq_some hfind
  have hk : k ∈ fs.map (·.name) := hname ▸ List.mem_map_of_mem hmem
  -- The member `k` counts as seen from here on.
  have hcount : ∀ name, k ∉ seen →
      (((((k, d) :: members).map (·.1)).count name ≤ if name ∈ seen then 0 else 1) ↔
        (members.map (·.1)).count name ≤ if name ∈ k :: seen then 0 else 1) := by
    intro name hseen
    rw [List.map_cons, List.count_cons]
    by_cases heq : name = k
    · subst heq
      simp [hseen]
    · have hne : (k == name) = false := by simpa using fun h => heq h.symm
      simp [heq, hne]
  constructor
  · rintro ⟨hp, hc, ho⟩
    have hseen : k ∉ seen := fun hm => by simpa [hm] using ho k hk
    refine ⟨hseen, hc field hmem d (hname ▸ List.mem_cons_self),
      fun k' d' hm => hp k' d' (List.mem_cons_of_mem _ hm),
      fun f hf d' hm => hc f hf d' (List.mem_cons_of_mem _ hm), fun name hm => ?_⟩
    exact (hcount name hseen).1 (ho name hm)
  · rintro ⟨hseen, hcheck, hp, hc, ho⟩
    refine ⟨fun k' d' hm hk' => ?_, fun f hf d' hm => ?_,
      fun name hm => (hcount name hseen).2 (ho name hm)⟩
    · rcases List.mem_cons.1 hm with heq | hm
      · exact absurd hk ((Prod.mk.inj heq).1 ▸ hk')
      · exact hp k' d' hm hk'
    · rcases List.mem_cons.1 hm with heq | hm
      · obtain ⟨hfk, rfl⟩ := Prod.mk.inj heq
        rw [eq_of_find? hn hfind hf hfk]
        exact hcheck
      · exact hc f hf d' hm

theorem checkMembers_eq_ok_iff (hn : (fs.map (·.name)).Nodup) (seen : List String)
    (members : List (String × Datum)) :
    checkMembers fs seen members = .ok () ↔ Accepted fs seen members := by
  induction members generalizing seen with
  | nil => exact ⟨fun _ => accepted_nil, fun _ => rfl⟩
  | cons e members ih =>
    obtain ⟨k, d⟩ := e
    unfold checkMembers
    split
    · next hfind =>
      rw [accepted_cons_of_unknown (by simpa [List.find?_eq_none] using hfind), ← ih]
      split
      · next hs => simp [hs]
      · next hs => simp [hs]
    · next field hfind =>
      rw [accepted_cons_of_known hn hfind, ← ih]
      split
      · next hseen => simp [hseen]
      · next hseen =>
        cases hcheck : field.check d with
        | error f => exact ⟨nofun, fun h => by cases h.2.1⟩
        | ok u => exact ⟨fun h => ⟨hseen, rfl, h⟩, fun h => h.2.2⟩

/-! ## Lists -/

/-- A field for which no item is left. -/
theorem checkItems_missing_iff {whole : String} {e : Ending} {place : Nat} {field : Field}
    {fs : List Field} {found : List (String × Datum)} {rest : List Datum} :
    checkItems whole e place (field :: fs) [] = .ok (found, rest) ↔ e.readFault = none ∧
      field.absence = .filled ∧ checkItems whole e (place + 1) fs [] = .ok (found, rest) := by
  rw [checkItems, bind_eq_ok]
  constructor
  · rintro ⟨_, hc, h⟩
    split at h
    · next hf => exact ⟨closing_eq_ok_iff.1 hc, hf, h⟩
    · cases h
  · rintro ⟨hc, hf, h⟩
    exact ⟨(), closing_eq_ok_iff.2 hc, by rwa [if_pos hf]⟩

/-- A field with an item in its place. -/
theorem checkItems_present_iff {whole : String} {e : Ending} {place : Nat} {field : Field}
    {fs : List Field} {d : Datum} {items : List Datum} {found : List (String × Datum)}
    {rest : List Datum} :
    checkItems whole e place (field :: fs) (d :: items) = .ok (found, rest) ↔
      field.check d = .ok () ∧ ∃ found', found = (field.name, d) :: found' ∧
        checkItems whole e (place + 1) fs items = .ok (found', rest) := by
  rw [checkItems, bind_eq_ok]
  constructor
  · rintro ⟨_, hc, h⟩
    obtain ⟨⟨found', rest'⟩, h', hok⟩ := bind_eq_ok.1 h
    obtain ⟨rfl, rfl⟩ := Prod.mk.inj (Except.ok.inj hok)
    exact ⟨hc, found', rfl, h'⟩
  · rintro ⟨hc, found', rfl, h⟩
    exact ⟨(), hc, bind_eq_ok.2 ⟨_, h, rfl⟩⟩

/-- The items of a list are accepted in the places of the fields. -/
theorem checkItems_eq_ok_iff (whole : String) (e : Ending) (place : Nat) (fs : List Field)
    (items : List Datum) (found : List (String × Datum)) (rest : List Datum) :
    checkItems whole e place fs items = .ok (found, rest) ↔
      (∀ p ∈ fs.zip items, p.1.check p.2 = .ok ()) ∧
      (items.length < fs.length →
        e.readFault = none ∧ ∀ f ∈ fs.drop items.length, f.absence = .filled) ∧
      found = (fs.map (·.name)).zip items ∧ rest = items.drop fs.length := by
  induction fs generalizing place items found rest with
  | nil => simp [checkItems, eq_comm]
  | cons field fs ih =>
    cases items with
    | nil =>
      rw [checkItems_missing_iff, ih]
      constructor
      · rintro ⟨hc, hf, -, hrest, rfl, rfl⟩
        refine ⟨by simp, fun _ => ⟨hc, List.forall_mem_cons.2 ⟨hf, fun f hm => ?_⟩⟩, by simp,
          by simp⟩
        exact (hrest (List.length_pos_of_mem hm)).2 f hm
      · rintro ⟨-, h, rfl, rfl⟩
        obtain ⟨hc, hf⟩ := h (by simp)
        obtain ⟨hfield, hrest⟩ := List.forall_mem_cons.1 hf
        exact ⟨hc, hfield, by simp, fun _ => ⟨hc, hrest⟩, by simp, by simp⟩
    | cons d items =>
      rw [checkItems_present_iff, List.zip_cons_cons, List.forall_mem_cons]
      constructor
      · rintro ⟨hd, found', rfl, h⟩
        obtain ⟨hz, hrest, rfl, rfl⟩ := (ih _ _ _ _).1 h
        exact ⟨⟨hd, hz⟩, fun hlt => hrest (by simpa using hlt), rfl, rfl⟩
      · rintro ⟨⟨hd, hz⟩, hrest, rfl, rfl⟩
        exact ⟨hd, _, rfl, (ih _ _ _ _).2 ⟨hz, fun hlt => hrest (by simpa using hlt), rfl, rfl⟩⟩

/-- The fields of a list are its items, if there is none too many. -/
theorem fields_list_eq_ok_iff (type : String) (fs : List Field) (items : List Datum) (e : Ending)
    (found : Found) :
    fields type fs (.list items e) = .ok found ↔
      e.readFault = none ∧ (e = .strict → items.length ≤ fs.length) ∧
      (∀ p ∈ fs.zip items, p.1.check p.2 = .ok ()) ∧
      (∀ f ∈ fs.drop items.length, f.absence = .filled) ∧
      found = fun name => ((fs.map (·.name)).zip items).lookup name := by
  have hdrop : items.length ≥ fs.length → ∀ f ∈ fs.drop items.length, f.absence = .filled := by
    intro h f hf
    rw [List.drop_eq_nil_of_le h] at hf
    cases hf
  unfold fields
  rw [bind_eq_ok]
  constructor
  · rintro ⟨⟨pairs, rest⟩, hi, h⟩
    obtain ⟨_, hc, hok⟩ := bind_eq_ok.1 h
    obtain ⟨hz, hrest, rfl, rfl⟩ := (checkItems_eq_ok_iff _ _ _ _ _ _ _).1 hi
    obtain rfl : _ = found := Except.ok.inj hok
    have hfilled : ∀ f ∈ fs.drop items.length, f.absence = .filled := by
      rcases Nat.lt_or_ge items.length fs.length with hlt | hge
      · exact (hrest hlt).2
      · exact hdrop hge
    cases e with
    | lenient => exact ⟨rfl, nofun, hz, hfilled, rfl⟩
    | strict =>
      refine ⟨rfl, fun _ => ?_, hz, hfilled, rfl⟩
      refine Nat.le_of_not_lt fun hlt => ?_
      cases hr : items.drop fs.length with
      | nil => exact absurd (List.drop_eq_nil_iff.1 hr) (Nat.not_le.2 hlt)
      | cons d r =>
        rw [hr] at hc
        cases hc
    | broken f g =>
      exfalso
      revert hc
      change (if _ then Except.error _ else Except.error _) = Except.ok _ → False
      split <;> nofun
  · rintro ⟨he, hl, hz, hf, rfl⟩
    refine ⟨_, (checkItems_eq_ok_iff _ _ _ _ _ _ _).2 ⟨hz, fun _ => ⟨he, hf⟩, rfl, rfl⟩,
      bind_eq_ok.2 ⟨(), ?_, rfl⟩⟩
    cases e with
    | lenient => rfl
    | strict =>
      rw [List.drop_eq_nil_of_le (hl rfl)]
      rfl
    | broken f g => cases he

theorem mem_zip_iff {α β : Type} {l : List α} {l' : List β} {p : α × β} :
    p ∈ l.zip l' ↔ ∃ i : Nat, l[i]? = some p.1 ∧ l'[i]? = some p.2 := by
  rw [List.mem_iff_getElem?]
  exact exists_congr fun i => List.getElem?_zip_eq_some

/-- What is found under the name of a field is the item in its place. -/
theorem lookup_zip (hn : (fs.map (·.name)).Nodup) (items : List Datum) {f : Field} {i : Nat}
    (hi : fs[i]? = some f) : ((fs.map (·.name)).zip items).lookup f.name = items[i]? := by
  have hcount : ((((fs.map (·.name)).zip items).map (·.1)).count f.name) ≤ 1 := by
    rw [List.zip_eq_zip_take_min, List.map_fst_zip (by simp)]
    exact List.nodup_iff_count.1 (hn.sublist (List.take_sublist _ _)) _
  refine Option.ext fun d => ?_
  rw [lookup_eq_some_iff hcount, mem_zip_iff]
  constructor
  · rintro ⟨j, hj, hd⟩
    obtain ⟨g, hg, hname⟩ : ∃ g, fs[j]? = some g ∧ g.name = f.name := by simpa using hj
    obtain ⟨hil, rfl⟩ := List.getElem?_eq_some_iff.1 hi
    obtain ⟨hjl, rfl⟩ := List.getElem?_eq_some_iff.1 hg
    obtain rfl := index_eq_of_name hn hjl hil hname
    exact hd
  · exact fun hd => ⟨i, by simp [hi], hd⟩

/-- Items fit the fields in their places if what is found under the names fits. -/
theorem check_zip_iff (hn : (fs.map (·.name)).Nodup) (items : List Datum) :
    (∀ p ∈ fs.zip items, p.1.check p.2 = .ok ()) ↔
      ∀ f ∈ fs, ∀ d, ((fs.map (·.name)).zip items).lookup f.name = some d → f.check d = .ok () := by
  constructor
  · intro h f hf d hd
    obtain ⟨i, hi⟩ := List.mem_iff_getElem?.1 hf
    exact h (f, d) (mem_zip_iff.2 ⟨i, hi, (lookup_zip hn items hi).symm.trans hd⟩)
  · rintro h ⟨f, d⟩ hm
    obtain ⟨i, hi, hd⟩ := mem_zip_iff.1 hm
    exact h f (List.mem_of_getElem? hi) d ((lookup_zip hn items hi).trans hd)

/-- No place is left without an item if every field that has to occur is found. -/
theorem filled_drop_iff (hn : (fs.map (·.name)).Nodup) (items : List Datum) :
    (∀ f ∈ fs.drop items.length, f.absence = .filled) ↔
      ∀ f ∈ fs, f.absence ≠ .filled →
        (((fs.map (·.name)).zip items).lookup f.name).isSome := by
  constructor
  · intro h f hf hne
    obtain ⟨i, hi⟩ := List.mem_iff_getElem?.1 hf
    rw [lookup_zip hn items hi, Option.isSome_iff_exists]
    rcases Nat.lt_or_ge i items.length with hlt | hge
    · exact ⟨_, List.getElem?_eq_getElem hlt⟩
    · refine absurd (h f (List.mem_iff_getElem?.2 ⟨i - items.length, ?_⟩)) hne
      rw [List.getElem?_drop, Nat.add_sub_cancel' hge, hi]
  · intro h f hf
    obtain ⟨i, hi⟩ := List.mem_iff_getElem?.1 hf
    rw [List.getElem?_drop] at hi
    refine Decidable.byContradiction fun hne => ?_
    have hsome := h f (List.mem_of_getElem? hi) hne
    rw [lookup_zip hn items hi, List.getElem?_eq_none (Nat.le_add_right _ _)] at hsome
    cases hsome

theorem firstMissing_eq_none_iff (ha : ∀ f ∈ fs, f.absence ≠ .emptyInDict) (found : Found) :
    firstMissing fs found = none ↔
      ∀ f ∈ fs, f.absence ≠ .filled → (found f.name).isSome := by
  simp only [firstMissing, Option.map_eq_none_iff, List.find?_eq_none]
  refine forall₂_congr fun f hf => ?_
  have := ha f hf
  cases habs : f.absence <;> simp_all [Option.isSome_iff_ne_none]

/-- A record is read from a datum exactly if it has the parts and they fit. -/
theorem fields_eq_ok_iff (hn : (fs.map (·.name)).Nodup)
    (ha : ∀ f ∈ fs, f.absence ≠ .emptyInDict) (type : String) (d : Datum) (found : Found) :
    fields type fs d = .ok found ↔ Parts (fs.map (·.name)) d found ∧ Fit fs found := by
  cases d with
  | dict members e =>
    have hmissing := firstMissing_eq_none_iff ha fun name => members.lookup name
    unfold fields
    rw [bind_eq_ok]
    constructor
    · rintro ⟨_, hm, h⟩
      obtain ⟨_, hc, h⟩ := bind_eq_ok.1 h
      obtain ⟨hp, hcheck, ho⟩ := (checkMembers_eq_ok_iff hn [] members).1 hm
      dsimp only at h
      split at h
      · cases h
      · next hnone =>
        obtain rfl := Except.ok.inj h
        exact ⟨.dict (closing_eq_ok_iff.1 hc) (by simpa using ho) hp,
          fun f hf d hd => hcheck f hf d (mem_of_lookup hd), hmissing.1 hnone⟩
    · rintro ⟨hparts, hcheck, hpresent⟩
      cases hparts with
      | dict hc ho hp =>
        refine ⟨(), (checkMembers_eq_ok_iff hn [] members).2
          ⟨hp, fun f hf d hm => ?_, by simpa using ho⟩,
          bind_eq_ok.2 ⟨(), closing_eq_ok_iff.2 hc, ?_⟩⟩
        · exact hcheck f hf d ((lookup_eq_some_iff (ho _ (List.mem_map_of_mem hf))).2 hm)
        · dsimp only
          rw [hmissing.2 hpresent]
  | list items e =>
    rw [fields_list_eq_ok_iff, check_zip_iff hn, filled_drop_iff hn]
    constructor
    · rintro ⟨hc, hl, hz, hf, rfl⟩
      exact ⟨.list hc (by simpa using hl), hz, hf⟩
    · rintro ⟨hparts, hz, hf⟩
      cases hparts with
      | list hc hl => exact ⟨hc, by simpa using hl, hz, hf, rfl⟩
  | _ => exact ⟨nofun, nofun⟩

/-- A dictionary whose members are accepted is read if no field has to occur. -/
theorem fields_of_accepted (hn : (fs.map (·.name)).Nodup) (ha : ∀ f ∈ fs, f.absence ≠ .refused)
    (type : String) (h : Accepted fs [] members) :
    fields type fs (.dict members .strict) = .ok fun name => members.lookup name := by
  have hmissing : firstMissing fs (fun name => members.lookup name) = none := by
    rw [firstMissing, Option.map_eq_none_iff, List.find?_eq_none]
    intro f hf
    simp [ha f hf]
  refine bind_eq_ok.2 ⟨(), (checkMembers_eq_ok_iff hn [] members).2 h, ?_⟩
  refine bind_eq_ok.2 ⟨(), rfl, ?_⟩
  dsimp only
  rw [hmissing]

/-- The data that the fields of a record are read from. -/
def partsOf : Datum → List Datum
  | .dict members _ => members.map (·.2)
  | .list items _ => items
  | _ => []

theorem mem_partsOf {type : String} {found : Found} (h : fields type fs d = .ok found)
    {name : String} {x : Datum} (hx : found name = some x) : x ∈ partsOf d := by
  cases d with
  | dict members e =>
    obtain ⟨_, -, h⟩ := bind_eq_ok.1 h
    obtain ⟨_, -, h⟩ := bind_eq_ok.1 h
    dsimp only at h
    split at h
    · cases h
    · obtain rfl := Except.ok.inj h
      exact List.mem_map.2 ⟨_, mem_of_lookup hx, rfl⟩
  | list items e =>
    obtain ⟨-, -, -, -, rfl⟩ := (fields_list_eq_ok_iff type fs items e found).1 h
    exact (List.of_mem_zip (mem_of_lookup hx)).2
  | _ => cases h

/-! ## Single parts -/

variable {α : Type} {decoder : Decoder α} {found : Found} {name : String} {x default : α}

theorem get_eq_ok_iff :
    found.get name decoder = .ok x ↔ ∃ d, found name = some d ∧ decoder d = .ok x := by
  unfold Found.get
  cases found name <;> simp

theorem getD_eq_ok_iff : found.getD name decoder default = .ok x ↔
    (found name = none ∧ x = default) ∨ ∃ d, found name = some d ∧ decoder d = .ok x := by
  unfold Found.getD
  cases found name <;> simp [eq_comm]

theorem check_of_ok {absence : Absence} (h : decoder d = .ok x) :
    (Field.of name decoder absence).check d = .ok () := by
  rw [Field.of]
  dsimp only
  rw [h]
  rfl

theorem check_of_get {absence : Absence} (h : found.get name decoder = .ok x)
    (hd : found name = some d) : (Field.of name decoder absence).check d = .ok () := by
  obtain ⟨d', hd', hx⟩ := get_eq_ok_iff.1 h
  obtain rfl := Option.some.inj (hd.symm.trans hd')
  exact check_of_ok hx

theorem check_of_getD {absence : Absence} (h : found.getD name decoder default = .ok x)
    (hd : found name = some d) : (Field.of name decoder absence).check d = .ok () := by
  rcases getD_eq_ok_iff.1 h with ⟨hnone, -⟩ | ⟨d', hd', hx⟩
  · cases hnone.symm.trans hd
  · obtain rfl := Option.some.inj (hd.symm.trans hd')
    exact check_of_ok hx

theorem isSome_of_get (h : found.get name decoder = .ok x) : (found name).isSome := by
  obtain ⟨d, hd, -⟩ := get_eq_ok_iff.1 h
  rw [hd]
  rfl

theorem boolean_eq_ok_iff {b : Bool} : boolean d = .ok b ↔ d = .boolean b := by
  cases d <;> simp [boolean]

theorem text_eq_ok_iff {s : String} : text d = .ok s ↔ d = .text s := by
  cases d <;> simp [text]

/-- A whole number that is not below zero. -/
theorem natural_eq_ok_iff {type : String} {high : Int} {n : Nat} :
    (wholeIn type 0 high d).map Int.toNat = .ok n ↔ d = .whole n ∧ n ≤ high := by
  unfold wholeIn
  split
  · next m =>
    split
    · next hm =>
      simp only [Except.map, Except.ok.injEq, Datum.whole.injEq]
      omega
    · next hm =>
      simp only [Except.map, reduceCtorEq, Datum.whole.injEq, false_iff]
      omega
  · next hne =>
    refine ⟨nofun, fun h => ?_⟩
    exact absurd h.1 (hne n)

theorem optional_eq_ok_iff {o : Option α} : optional decoder d = .ok o ↔
    (d = .null ∧ o = none) ∨ d ≠ .null ∧ ∃ x, decoder d = .ok x ∧ o = some x := by
  unfold optional
  split
  · simp [eq_comm]
  · next hne =>
    have hne' : d ≠ .null := fun h => hne h
    cases hd : decoder d <;> simp [hne', Except.map, eq_comm]

end Decoder
end LinkTest
