import LinkTest.Proofs.Wire.Codec

/-!
# Records and their data

A schema lists the members of a record with their codecs and defaults. What a dictionary is read as
depends on the members it names and on nothing else: not on their order, nor on members that the
schema does not know, nor on whether a default is given or left out.
-/

namespace LinkTest.Wire

open Decoder (Accepted)
open Json (Cut echo)

/-- A member of the records of a type. -/
structure Slot (α : Type) where
  Value : Type
  name : String
  codec : Codec Value
  absence : Decoder.Absence
  default : Option Value
  get : α → Value
  required : absence = .refused ↔ default = none
  default_proper : ∀ x, default = some x → codec.Proper x

namespace Slot

variable {α : Type}

def field (s : Slot α) : Decoder.Field := .of s.name s.codec.decoder s.absence

/-- What has been found gives the member this value: its own or, if there is none, the default. -/
def Holds (s : Slot α) (found : Decoder.Found) (v : α) : Prop :=
  (∃ d, found s.name = some d ∧ s.codec.decoder d = .ok (s.get v)) ∨
    found s.name = none ∧ s.default = some (s.get v)

variable {s : Slot α} {found found' : Decoder.Found} {v : α} {d : Datum}

theorem Holds.congr (h : s.Holds found v) (heq : found' s.name = found s.name) :
    s.Holds found' v := by
  rw [Holds, heq]
  exact h

theorem holds_of_found (hd : found s.name = some d) :
    s.Holds found v ↔ s.codec.decoder d = .ok (s.get v) := by
  rw [Holds, hd]
  simp

theorem holds_of_absent (hnone : found s.name = none) :
    s.Holds found v ↔ s.default = some (s.get v) := by
  rw [Holds, hnone]
  simp

theorem Holds.proper (h : s.Holds found v) : s.codec.Proper (s.get v) := by
  rcases h with ⟨d, -, hd⟩ | ⟨-, hdefault⟩
  · exact s.codec.proper d _ hd
  · exact s.default_proper _ hdefault

theorem check_eq_ok_iff : s.field.check d = .ok () ↔ ∃ x, s.codec.decoder d = .ok x := by
  change ((s.codec.decoder d).map fun _ => ()) = .ok () ↔ _
  cases s.codec.decoder d <;> simp [Except.map]

end Slot

/-- A record type: its members, its reader and its form as a datum. -/
structure Schema (α : Type) where
  type : String
  slots : List (Slot α)
  decoder : Decoder α
  datum : α → Datum
  nodup : (slots.map (·.name)).Nodup
  decoder_eq_ok_iff : ∀ d v, decoder d = .ok v ↔ ∃ found,
    Decoder.fields type (slots.map (·.field)) d = .ok found ∧ ∀ s ∈ slots, s.Holds found v
  datum_eq : ∀ v, datum v = .dict (slots.map fun s => (s.name, s.codec.datum (s.get v))) .strict

namespace Schema

variable {α : Type} (S : Schema α)

def names : List String := S.slots.map (·.name)

def fields : List Decoder.Field := S.slots.map (·.field)

/-- The members that have to be there. -/
def needed : List String := (S.slots.filter (·.default.isNone)).map (·.name)

/-- The members that are numbers, with the least and the greatest. -/
def numbers : List (String × Int × Int) :=
  S.slots.filterMap fun s => s.codec.range.map fun r => (s.name, r)

/-- The members that can be left out, with what they are taken for. -/
def defaults : List (String × Datum) :=
  S.slots.filterMap fun s => s.default.map fun x => (s.name, s.codec.datum x)

theorem names_fields : S.fields.map (·.name) = S.names := by
  rw [fields, List.map_map]
  rfl

theorem nodup_fields : (S.fields.map (·.name)).Nodup := S.names_fields ▸ S.nodup

/-- A dictionary is read as a record. -/
structure Reads (members : List (String × Datum)) (e : Ending) (v : α) : Prop where
  closed : e.readFault = none
  once : ∀ name ∈ S.names, (members.map (·.1)).count name ≤ 1
  passable : ∀ k d, (k, d) ∈ members → k ∉ S.names → d.skipFault = none
  holds : ∀ s ∈ S.slots, s.Holds (fun name => members.lookup name) v

variable {S} {members members' : List (String × Datum)} {e : Ending} {v : α} {k : String}
  {d d' : Datum}

theorem accepted_of_reads (h : S.Reads members e v) : Accepted S.fields [] members := by
  refine ⟨fun k d hm hk => h.passable k d hm (S.names_fields ▸ hk), fun f hf d hm => ?_,
    fun name hname => by simpa using h.once name (S.names_fields ▸ hname)⟩
  obtain ⟨s, hs, rfl⟩ := List.mem_map.1 hf
  have hlookup := (lookup_eq_some_iff (h.once s.name (List.mem_map_of_mem hs))).2 hm
  exact Slot.check_eq_ok_iff.2 ⟨_, (Slot.holds_of_found hlookup).1 (h.holds s hs)⟩

theorem firstMissing_of_reads (h : S.Reads members e v) :
    Decoder.firstMissing S.fields (fun name => members.lookup name) = none := by
  rw [Decoder.firstMissing, Option.map_eq_none_iff, List.find?_eq_none]
  intro f hf
  obtain ⟨s, hs, rfl⟩ := List.mem_map.1 hf
  rcases h.holds s hs with ⟨d, hd, -⟩ | ⟨-, hdefault⟩
  · have hd' : members.lookup s.field.name = some d := hd
    simp [hd']
  · have habsence : s.field.absence ≠ .refused := fun hrefused => by
      rw [s.required.1 hrefused] at hdefault
      cases hdefault
    simp [habsence]

theorem decoder_dict_iff :
    S.decoder (.dict members e) = .ok v ↔ S.Reads members e v := by
  rw [S.decoder_eq_ok_iff]
  constructor
  · rintro ⟨found, hfields, hholds⟩
    obtain ⟨_, hm, h⟩ := bind_eq_ok.1 hfields
    obtain ⟨_, hc, h⟩ := bind_eq_ok.1 h
    obtain ⟨hp, -, ho⟩ := (Decoder.checkMembers_eq_ok_iff S.nodup_fields [] members).1 hm
    dsimp only at h
    split at h
    · cases h
    · obtain rfl := Except.ok.inj h
      exact ⟨Decoder.closing_eq_ok_iff.1 hc,
        fun name hname => by simpa using ho name (S.names_fields ▸ hname),
        fun k d hm hk => hp k d hm (S.names_fields ▸ hk), hholds⟩
  · intro h
    refine ⟨_, bind_eq_ok.2 ⟨(), (Decoder.checkMembers_eq_ok_iff S.nodup_fields [] members).2
      (accepted_of_reads h), bind_eq_ok.2 ⟨(), Decoder.closing_eq_ok_iff.2 h.closed, ?_⟩⟩, h.holds⟩
    dsimp only
    have hmissing := firstMissing_of_reads h
    rw [fields] at hmissing
    rw [hmissing]

/-- Whatever a record is read from, each of its members is found there or has a default. -/
theorem exists_parts (h : S.decoder d = .ok v) :
    ∃ found, Decoder.Parts S.names d found ∧ ∀ s ∈ S.slots, s.Holds found v := by
  cases d with
  | dict members e =>
    obtain ⟨hc, honce, hpassable, hholds⟩ := decoder_dict_iff.1 h
    exact ⟨_, .dict hc honce hpassable, hholds⟩
  | list items e =>
    obtain ⟨found, hfields, hholds⟩ := (S.decoder_eq_ok_iff _ _).1 h
    obtain ⟨hc, hlen, -, -, rfl⟩ := (Decoder.fields_list_eq_ok_iff _ _ _ _ _).1 hfields
    change ∀ s ∈ S.slots, s.Holds (fun name => ((S.fields.map (·.name)).zip items).lookup name) v
      at hholds
    rw [S.names_fields] at hholds
    exact ⟨_, .list hc (by simpa [names] using hlen), hholds⟩
  | _ =>
    obtain ⟨found, hfields, -⟩ := (S.decoder_eq_ok_iff _ _).1 h
    cases hfields

theorem isSome_of_needed {found : Decoder.Found} {name : String}
    (h : ∀ s ∈ S.slots, s.Holds found v) (hname : name ∈ S.needed) :
    (found name).isSome = true := by
  obtain ⟨s, hs, rfl⟩ := List.mem_map.1 hname
  obtain ⟨hs, hnone⟩ := List.mem_filter.1 hs
  rcases h s hs with ⟨d, hd, -⟩ | ⟨-, hdefault⟩
  · rw [hd]
    rfl
  · rw [hdefault] at hnone
    cases hnone

theorem whole_of_mem_numbers {found : Decoder.Found} {name : String} {low high : Int}
    (h : ∀ s ∈ S.slots, s.Holds found v) (hnumber : (name, low, high) ∈ S.numbers)
    (hd : found name = some d) : ∃ m, d = .whole m ∧ low ≤ m ∧ m ≤ high := by
  obtain ⟨s, hs, hrange⟩ := List.mem_filterMap.1 hnumber
  obtain ⟨r, hr, heq⟩ := Option.map_eq_some_iff.1 hrange
  obtain ⟨rfl, rfl⟩ := Prod.mk.inj heq
  exact s.codec.whole low high hr d _ ((Slot.holds_of_found hd).1 (h s hs))

/-! ## What the reader does not see -/

theorem Reads.perm (h : S.Reads members e v) (hperm : members.Perm members') :
    S.Reads members' e v where
  closed := h.closed
  once name hname := by
    rw [← (hperm.map (·.1)).count_eq]
    exact h.once name hname
  passable k d hm := h.passable k d (hperm.mem_iff.2 hm)
  holds s hs := by
    have honce := h.once s.name (List.mem_map_of_mem hs)
    have honce' : (members'.map (·.1)).count s.name ≤ 1 := by
      rwa [← (hperm.map (·.1)).count_eq]
    refine (h.holds s hs).congr (Option.ext fun d => ?_)
    rw [lookup_eq_some_iff honce, lookup_eq_some_iff honce', hperm.mem_iff]

/-- The order of the members does not matter. -/
theorem decoder_perm (hperm : members.Perm members') :
    S.decoder (.dict members e) = .ok v ↔ S.decoder (.dict members' e) = .ok v := by
  rw [decoder_dict_iff, decoder_dict_iff]
  exact ⟨fun h => h.perm hperm, fun h => h.perm hperm.symm⟩

/-- Members of other names do not matter. -/
theorem decoder_unknown (hk : k ∉ S.names) (hd : d.skipFault = none) :
    S.decoder (.dict members e) = .ok v ↔ S.decoder (.dict ((k, d) :: members) e) = .ok v := by
  have hne : ∀ name ∈ S.names, k ≠ name := fun name hname heq => hk (heq ▸ hname)
  have hlookup : ∀ s ∈ S.slots, ((k, d) :: members).lookup s.name = members.lookup s.name := by
    intro s hs
    rw [lookup_cons_eq, if_neg (hne s.name (List.mem_map_of_mem hs)).symm]
  rw [decoder_dict_iff, decoder_dict_iff]
  constructor
  · intro h
    refine ⟨h.closed, fun name hname => ?_, fun k' d' hm hk' => ?_,
      fun s hs => (h.holds s hs).congr (hlookup s hs)⟩
    · rw [List.map_cons, List.count_cons_of_ne (hne name hname)]
      exact h.once name hname
    · rcases List.mem_cons.1 hm with heq | hm
      · rw [(Prod.mk.inj heq).2]
        exact hd
      · exact h.passable k' d' hm hk'
  · intro h
    refine ⟨h.closed, fun name hname => ?_,
      fun k' d' hm => h.passable k' d' (List.mem_cons_of_mem _ hm),
      fun s hs => (h.holds s hs).congr (hlookup s hs).symm⟩
    have honce := h.once name hname
    rwa [List.map_cons, List.count_cons_of_ne (hne name hname)] at honce

/-- All but one member of the records are read. -/
structure Others (S : Schema α) (s : Slot α) (members : List (String × Datum)) (e : Ending) (v : α) :
    Prop where
  closed : e.readFault = none
  once : ∀ name ∈ S.names, (members.map (·.1)).count name ≤ 1
  passable : ∀ k d, (k, d) ∈ members → k ∉ S.names → d.skipFault = none
  holds : ∀ s' ∈ S.slots, s'.name ≠ s.name → s'.Holds (fun name => members.lookup name) v

theorem eq_of_name {s s' : Slot α} (hs : s ∈ S.slots) (hs' : s' ∈ S.slots) (h : s'.name = s.name) :
    s' = s := by
  obtain ⟨i, hi, rfl⟩ := List.mem_iff_getElem.1 hs
  obtain ⟨j, hj, rfl⟩ := List.mem_iff_getElem.1 hs'
  have hindex : j = i := (@List.getElem_inj _ _ _ _ (by simpa) (by simpa) S.nodup).1 (by simpa using h)
  subst hindex
  rfl

variable {s : Slot α}

theorem reads_absent_iff (hs : s ∈ S.slots) (habsent : s.name ∉ members.map (·.1)) :
    S.Reads members e v ↔ S.Others s members e v ∧ s.default = some (s.get v) := by
  have hnone : members.lookup s.name = none := lookup_eq_none_iff_not_mem.2 habsent
  constructor
  · intro h
    exact ⟨⟨h.closed, h.once, h.passable, fun s' hs' _ => h.holds s' hs'⟩,
      (Slot.holds_of_absent hnone).1 (h.holds s hs)⟩
  · rintro ⟨h, hdefault⟩
    refine ⟨h.closed, h.once, h.passable, fun s' hs' => ?_⟩
    by_cases hname : s'.name = s.name
    · obtain rfl := eq_of_name hs hs' hname
      exact (Slot.holds_of_absent hnone).2 hdefault
    · exact h.holds s' hs' hname

theorem reads_cons_iff (hs : s ∈ S.slots) (habsent : s.name ∉ members.map (·.1)) :
    S.Reads ((s.name, d) :: members) e v ↔
      S.Others s members e v ∧ s.codec.decoder d = .ok (s.get v) := by
  have hself : ((s.name, d) :: members).lookup s.name = some d := by
    rw [lookup_cons_eq, if_pos rfl]
  have hother : ∀ s' : Slot α, s'.name ≠ s.name →
      ((s.name, d) :: members).lookup s'.name = members.lookup s'.name := by
    intro s' hne
    rw [lookup_cons_eq, if_neg hne]
  have hmem : s.name ∈ S.names := List.mem_map_of_mem hs
  constructor
  · intro h
    refine ⟨⟨h.closed, fun name hname => ?_,
      fun k d' hm => h.passable k d' (List.mem_cons_of_mem _ hm),
      fun s' hs' hne => (h.holds s' hs').congr (hother s' hne).symm⟩,
      (Slot.holds_of_found hself).1 (h.holds s hs)⟩
    refine Nat.le_trans ?_ (h.once name hname)
    rw [List.map_cons]
    exact List.count_le_count_cons
  · rintro ⟨h, hd⟩
    refine ⟨h.closed, fun name hname => ?_, fun k d' hm hk => ?_, fun s' hs' => ?_⟩
    · rw [List.map_cons, List.count_cons]
      by_cases heq : name = s.name
      · rw [heq, List.count_eq_zero_of_not_mem habsent]
        simp
      · rw [beq_false_of_ne (Ne.symm heq)]
        exact h.once name hname
    · rcases List.mem_cons.1 hm with heq | hm
      · exact absurd ((Prod.mk.inj heq).1 ▸ hmem) hk
      · exact h.passable k d' hm hk
    · by_cases hname : s'.name = s.name
      · obtain rfl := eq_of_name hs hs' hname
        exact (Slot.holds_of_found hself).2 hd
      · exact (h.holds s' hs' hname).congr (hother s' hname)

/-- A default may be given or left out. -/
theorem decoder_default {name : String} (h : (name, d) ∈ S.defaults)
    (habsent : name ∉ members.map (·.1)) :
    S.decoder (.dict members e) = .ok v ↔ S.decoder (.dict ((name, d) :: members) e) = .ok v := by
  obtain ⟨s, hs, hdefault⟩ := List.mem_filterMap.1 h
  obtain ⟨x, hx, heq⟩ := Option.map_eq_some_iff.1 hdefault
  obtain ⟨rfl, rfl⟩ := Prod.mk.inj heq
  rw [decoder_dict_iff, decoder_dict_iff, reads_absent_iff hs habsent, reads_cons_iff hs habsent,
    hx, s.codec.decode x (s.default_proper x hx)]
  simp

/-- A member may be given by any datum that stands for the same value. -/
theorem decoder_part (hs : s ∈ S.slots)
    (heq : ∀ x, s.codec.decoder d = .ok x ↔ s.codec.decoder d' = .ok x) :
    S.decoder (.dict ((s.name, d) :: members) e) = .ok v ↔
      S.decoder (.dict ((s.name, d') :: members) e) = .ok v := by
  rw [decoder_dict_iff, decoder_dict_iff]
  by_cases habsent : s.name ∉ members.map (·.1)
  · rw [reads_cons_iff hs habsent, reads_cons_iff hs habsent, heq]
  · -- the member stands there twice, and neither dictionary is read
    have htwice : ∀ d, ¬S.Reads ((s.name, d) :: members) e v := by
      intro d h
      have honce := h.once s.name (List.mem_map_of_mem hs)
      have hpos := List.count_pos_iff.2 (Decidable.not_not.1 habsent)
      rw [List.map_cons, List.count_cons_self] at honce
      omega
    exact iff_of_false (htwice d) (htwice d')

/-! ## The codec of a record type -/

theorem decode {v : α} (hv : ∀ s ∈ S.slots, s.codec.Proper (s.get v)) :
    S.decoder (S.datum v) = .ok v := by
  rw [S.datum_eq, decoder_dict_iff]
  have hnames : (S.slots.map fun s => (s.name, s.codec.datum (s.get v))).map (·.1) = S.names := by
    rw [List.map_map]
    rfl
  have honce : ∀ name, ((S.slots.map fun s => (s.name, s.codec.datum (s.get v))).map (·.1)).count
      name ≤ 1 := by
    intro name
    rw [hnames]
    exact List.nodup_iff_count.1 S.nodup name
  refine ⟨rfl, fun name _ => honce name, fun k d hm hk => ?_, fun s hs => .inl ⟨_,
    (lookup_eq_some_iff (honce s.name)).2 (List.mem_map_of_mem hs), s.codec.decode _ (hv s hs)⟩⟩
  exact absurd (hnames ▸ List.mem_map_of_mem hm) hk

theorem steady {v : α} (hv : ∀ s ∈ S.slots, s.codec.Proper (s.get v)) :
    echo (S.datum v) = S.datum v := by
  rw [S.datum_eq, echo, Json.echoMembers_eq_map, List.map_map]
  exact congrArg (Datum.dict · .strict)
    (List.map_congr_left fun s hs => congrArg (Prod.mk s.name) (s.codec.steady _ (hv s hs)))

theorem proper {v : α} (h : S.decoder d = .ok v) : ∀ s ∈ S.slots, s.codec.Proper (s.get v) := by
  obtain ⟨found, -, hholds⟩ := (S.decoder_eq_ok_iff d v).1 h
  exact fun s hs => (hholds s hs).proper

theorem not_cut {v : α} (h : S.decoder d = .ok v) : ¬Cut d := by
  intro hcut
  cases d with
  | dict members e =>
    have hreads := decoder_dict_iff.1 h
    cases hcut with
    | dict _ f g => cases hreads.closed
    | @member members k d hcut =>
      have hm : (k, d) ∈ members ++ [(k, d)] := by simp
      by_cases hk : k ∈ S.names
      · obtain ⟨s, hs, rfl⟩ := List.mem_map.1 hk
        have hlookup := (lookup_eq_some_iff (hreads.once s.name hk)).2 hm
        exact s.codec.not_cut d _ ((Slot.holds_of_found hlookup).1 (hreads.holds s hs)) hcut
      · have hsome := hcut.isSome_skipFault
        rw [hreads.passable k d hm hk] at hsome
        cases hsome
  | list items e =>
    obtain ⟨found, hfields, -⟩ := (S.decoder_eq_ok_iff _ _).1 h
    obtain ⟨hc, hlen, hcheck, -, -⟩ := (Decoder.fields_list_eq_ok_iff _ _ _ _ _).1 hfields
    cases hcut with
    | list _ f g => cases hc
    | @item items d hcut =>
      have hlt : items.length < (S.slots.map (·.field)).length := by
        have := hlen rfl
        rw [List.length_append, List.length_singleton] at this
        exact this
      obtain ⟨s, -, hs⟩ := List.mem_map.1 (List.getElem_mem hlt)
      have hzip : (s.field, d) ∈ (S.slots.map (·.field)).zip (items ++ [d]) :=
        Decoder.mem_zip_iff.2 ⟨items.length, by rw [hs, List.getElem?_eq_getElem hlt], by simp⟩
      obtain ⟨x, hx⟩ := Slot.check_eq_ok_iff.1 (hcheck _ hzip)
      exact s.codec.not_cut d x hx hcut
  | _ =>
    obtain ⟨found, hfields, -⟩ := (S.decoder_eq_ok_iff _ _).1 h
    cases hfields

def codec (S : Schema α) : Codec α where
  decoder := S.decoder
  datum := S.datum
  Proper v := ∀ s ∈ S.slots, s.codec.Proper (s.get v)
  range := none
  decode _ hv := decode hv
  steady _ hv := steady hv
  proper _ _ h := proper h
  not_cut _ _ h := not_cut h
  whole := nofun

end Schema
end LinkTest.Wire
