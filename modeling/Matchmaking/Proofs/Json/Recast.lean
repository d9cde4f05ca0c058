import Matchmaking.Proofs.Json.Grammar
import Mathlib.Data.List.Forall2
/-! Objects in another form: members in another order, and among them members of unknown names. A
record is read from any form of an object that it can be read from, since what is found for a field
depends on the members of its name alone, and there is one at most. -/
namespace Matchmaking
namespace Json

namespace Record

variable {α β : Type}

def names (r : Record α) : List String := r.fields.flatMap Field.names

@[simp] theorem names_map (g : α → β) (r : Record α) : (g <$> r).names = r.names := rfl

@[simp] theorem names_seq (f : Record (α → β)) (r : Record α) :
    (f <*> r).names = f.names ++ r.names := List.flatMap_append

@[simp] theorem names_needs (name : String) (decode : Json → Decoded α) (aliases : List String) :
    (needs name decode aliases).names = name :: aliases := List.append_nil _

@[simp] theorem names_may (name : String) (decode : Json → Decoded α) (default : α) :
    (may name decode default).names = [name] := rfl

end Record

/-- Another form of an object for a record. Its members stand in any order, each with a value that
the leeway of its name allows, and with them others whose names the record does not know. -/
inductive Recasts {α : Type} (r : Record α) (leeway : String → Json → Json → Prop) :
    Json → Json → Prop
  | reordered {members changed others all : List (String × Json)}
      (values : List.Forall₂ (fun m m' => m'.1 = m.1 ∧ leeway m.1 m.2 m'.2) members changed)
      (unknown : ∀ m ∈ others, m.1 ∉ r.names)
      (order : all.Perm (changed ++ others)) :
      Recasts r leeway (ofFields members) (ofFields all)

/-- No leeway: values stay as they are. -/
def exactly (_ : String) (v v' : Json) : Prop := v' = v

inductive RecastsItems (recasts : Json → Json → Prop) : Json → Json → Prop
  | items {vs vs' : List Json} (each : List.Forall₂ recasts vs vs') :
      RecastsItems recasts (.array vs) (.array vs')

/-- The value is read back from what is written of it, and from every text of another form. -/
structure Survives {α : Type} (decode : Json → Decoded α) (recasts : Json → Json → Prop) (v : Json)
    (a : α) : Prop where
  printed : decodeText decode v.print = .ok a
  recast : ∀ v' s, recasts v v' → Spells (.value v') s → decodeText decode s = .ok a

theorem Recasts.refl {α : Type} {r : Record α} {leeway : String → Json → Json → Prop}
    {members : List (String × Json)} (allowed : ∀ m ∈ members, leeway m.1 m.2 m.2) :
    Recasts r leeway (ofFields members) (ofFields members) := by
  have values : List.Forall₂ (fun m m' => m'.1 = m.1 ∧ leeway m.1 m.2 m'.2) members members := by
    simpa [List.forall₂_same] using allowed
  have unknown : ∀ m ∈ ([] : List (String × Json)), m.1 ∉ r.names := nofun
  exact .reordered values unknown (by simp)

theorem eq_of_exactly {members changed : List (String × Json)}
    (values : List.Forall₂ (fun m m' => m'.1 = m.1 ∧ exactly m.1 m.2 m'.2) members changed) :
    changed = members := by
  induction values with
  | nil => rfl
  | cons h _ ih => rw [ih, Prod.ext h.1 h.2]

namespace Record

/-- The values of `known` pass the checks, and if they are what is found, the record is `a`. -/
structure Yields {α : Type} (r : Record α) (known : Found) (a : α) : Prop where
  checks : ∀ f ∈ r.fields, ∀ v, known.lookup f.name = some v → f.check v = .ok ()
  builds : ∀ found : Found, (∀ f ∈ r.fields, found.lookup f.name = known.lookup f.name) →
    r.build found = .ok a

section

variable {α β : Type} {r : Record α} {known : Found} {a : α}

theorem Yields.map (h : r.Yields known a) (g : α → β) : (g <$> r).Yields known (g a) :=
  ⟨h.checks, fun found same => by simp [h.builds found same]⟩

theorem Yields.seq {f : Record (α → β)} {g : α → β} (hf : f.Yields known g)
    (h : r.Yields known a) : (f <*> r).Yields known (g a) where
  checks field mem := (List.mem_append.mp mem).elim (hf.checks field) (h.checks field)
  builds found same := by
    have first := hf.builds found fun field mem => same field (List.mem_append_left _ mem)
    have second := h.builds found fun field mem => same field (List.mem_append_right _ mem)
    simp [first, second]

variable {name : String} {decode : Json → Decoded α} {v : Json}

theorem yields_needs {aliases : List String} (there : known.lookup name = some v)
    (decoded : decode v = .ok a) : (needs name decode aliases).Yields known a where
  checks := by simp [needs, there, decoded, Except.map]
  builds found same := by simp [same _ List.mem_cons_self, needs, there, decoded]

theorem yields_may {default : α} (there : known.lookup name = some v) (decoded : decode v = .ok a) :
    (may name decode default).Yields known a where
  checks := by simp [may, there, decoded, Except.map]
  builds found same := by simp [same _ List.mem_cons_self, may, there, decoded]

theorem yields_may_of_none {default : α} (missing : known.lookup name = none) :
    (may name decode default).Yields known default where
  checks := by simp [may, missing]
  builds found same := by
    have missing' : found.lookup name = none := (same _ List.mem_cons_self).trans missing
    simp [may, missing']

end

section

variable {fields : List Field} {f : Field} {known others all : List (String × Json)}
  {members : Members}

theorem under_ofFields (names : List String) (known : List (String × Json)) :
    under names (ofFields known) =
      known.filterMap fun m => if names.contains m.1 then some m.2 else none := by
  rw [ofFields, under, List.filterMap_map]
  rfl

theorem mem_under {names : List String} {v : Json} :
    v ∈ under names (.object members) ↔ ∃ m ∈ members, m.1.any names.contains ∧ m.2 = v := by
  simp [under]

theorem nodup_offers (clear : (fields.flatMap Field.names).Nodup)
    (single : ∀ f ∈ fields, (under f.names (.object members)).length ≤ 1) :
    ((offers fields members).map Prod.fst).Nodup := by
  rw [List.nodup_iff_count_le_one]
  intro name
  by_cases bears : name ∈ fields.map Field.name
  · obtain ⟨f, mem, rfl⟩ := List.mem_map.mp bears
    have counted : ((offers fields members).map Prod.fst).count f.name =
        ((offers fields members).filterMap
          fun o => if o.1 = f.name then some o.2 else none).length := by
      rw [List.count_eq_countP, List.countP_map, List.length_filterMap_eq_countP]
      exact List.countP_congr fun o _ => by by_cases same : o.1 = f.name <;> simp [same]
    rw [counted, offers_of_field clear mem]
    exact single f mem
  · have absent : name ∉ (offers fields members).map Prod.fst := by
      intro offered
      obtain ⟨o, mem, rfl⟩ := List.mem_map.mp offered
      obtain ⟨m, -, made⟩ := List.mem_filterMap.mp mem
      obtain ⟨f, addressed, rfl⟩ := Option.map_eq_some_iff.mp made
      exact bears (List.mem_map_of_mem (mem_of_addressee? addressed))
    rw [List.count_eq_zero.mpr absent]
    exact Nat.zero_le 1

variable {α : Type} {r : Record α} {a : α}

/-- A record is read from an object whose members of each field's names have the one value that is
known for the field, or are missing as it is. -/
theorem ofObject_of_under (clear : r.names.Nodup) (yields : r.Yields known a)
    (keys : ∀ m ∈ members, m.1.isSome) (whole : ∀ m ∈ members, m.2.intact)
    (found : ∀ f ∈ r.fields, under f.names (.object members) = (known.lookup f.name).toList) :
    r.ofObject (.object members) = .ok a := by
  have once : ((offers r.fields members).map Prod.fst).Nodup :=
    nodup_offers clear fun f mem => found f mem ▸ Option.length_toList_le
  refine ofObject_eq_ok_iff.mpr ⟨members, rfl, fun m mem => ⟨keys m mem, ?_⟩, once, ?_⟩
  · cases addressed : addressee? r.fields m with
    | none => exact whole m mem
    | some f =>
      have isField := mem_of_addressee? addressed
      have there : m.2 ∈ under f.names (.object members) :=
        mem_under.mpr ⟨m, mem, (addressee?_eq_some_iff clear isField).mp addressed, rfl⟩
      rw [found f isField, Option.mem_toList] at there
      exact yields.checks f isField m.2 there
  · refine yields.builds _ fun f mem => ?_
    have looked := toList_lookup_reverse once f.name
    rw [offers_of_field clear mem, found f mem] at looked
    exact Option.ext fun v => by simp [← Option.mem_toList, looked]

theorem under_perm_lookup (clear : (fields.flatMap Field.names).Nodup)
    (named : ∀ m ∈ known, m.1 ∈ fields.map Field.name) (once : (known.map Prod.fst).Nodup)
    (mem : f ∈ fields) : (under f.names (ofFields known)).Perm (known.lookup f.name).toList := by
  have onceBackwards : (known.reverse.map Prod.fst).Nodup := by simpa using once
  have found := toList_lookup_reverse onceBackwards f.name
  rw [List.reverse_reverse] at found
  rw [found, List.filterMap_reverse]
  refine .trans (.of_eq ?_) (List.reverse_perm _).symm
  rw [under_ofFields]
  refine List.filterMap_congr fun m isKnown => ?_
  obtain ⟨g, isField, same⟩ := List.mem_map.mp (named m isKnown)
  have first : f.name ∈ f.names := List.mem_cons_self
  have bears : m.1 ∈ f.names ↔ m.1 = f.name := by
    constructor
    · intro bears
      rw [← same] at bears ⊢
      rw [eq_of_shared_name clear isField mem List.mem_cons_self bears]
    · rintro same
      rwa [same]
  by_cases same : m.1 = f.name <;> simp [bears, same, first]

theorem under_eq_nil (mem : f ∈ fields) (unknown : ∀ m ∈ others, m.1 ∉ fields.flatMap Field.names) :
    under f.names (ofFields others) = [] := by
  rw [under_ofFields, List.filterMap_eq_nil_iff]
  intro m isOther
  have strange : m.1 ∉ f.names := fun bears =>
    unknown m isOther (List.mem_flatMap.mpr ⟨f, mem, bears⟩)
  simp [strange]

theorem map_name_sublist (fields : List Field) :
    (fields.map Field.name).Sublist (fields.flatMap Field.names) := by
  induction fields with
  | nil => simp
  | cons f fields ih =>
    rw [List.map_cons, List.flatMap_cons, Field.names, List.cons_append]
    exact (ih.trans (List.sublist_append_right _ _)).cons_cons _

theorem ofObject_of_yields (clear : r.names.Nodup)
    (listed : (known.map Prod.fst).Sublist (r.fields.map Field.name)) (yields : r.Yields known a)
    (unknown : ∀ m ∈ others, m.1 ∉ r.names) (order : all.Perm (known ++ others))
    (whole : ∀ m ∈ all, m.2.intact) : r.ofObject (ofFields all) = .ok a := by
  have once : (known.map Prod.fst).Nodup := clear.sublist (listed.trans (map_name_sublist _))
  have named : ∀ m ∈ known, m.1 ∈ r.fields.map Field.name := fun m isKnown =>
    listed.subset (List.mem_map_of_mem isKnown)
  refine ofObject_of_under clear yields ?_ (List.forall_mem_map.mpr whole) fun f mem => ?_
  · exact List.forall_mem_map.mpr fun m _ => rfl
  · have perm : (under f.names (ofFields all)).Perm (known.lookup f.name).toList := by
      rw [under_ofFields]
      refine (order.filterMap _).trans ?_
      rw [List.filterMap_append, ← under_ofFields, ← under_ofFields, under_eq_nil mem unknown,
        List.append_nil]
      exact under_perm_lookup clear named once mem
    cases here : known.lookup f.name with
    | none => exact (here ▸ perm).eq_nil
    | some v => exact (here ▸ perm).eq_singleton

end

end Record

section

variable {α : Type} {r : Record α} {leeway : String → Json → Json → Prop}
  {members : List (String × Json)} {v' : Json} {a : α}

theorem intact_of_mem {all : Members} (whole : (object all).intact) : ∀ m ∈ all, m.2.intact := by
  induction all with
  | nil => simp
  | cons m all ih =>
    simp only [intact, intactMembers, Bool.and_eq_true] at whole ih
    rw [List.forall_mem_cons]
    exact ⟨whole.1, ih whole.2⟩

theorem ofFields_injective : Function.Injective ofFields := by
  intro members members' same
  refine List.map_injective_iff.mpr ?_ (Json.object.inj same)
  intro m m' same
  simpa [Prod.ext_iff] using same

/-- A record is read from every other form of its object. -/
theorem decode_of_recasts (clear : r.names.Nodup)
    (listed : (members.map Prod.fst).Sublist (r.fields.map Field.name))
    (yields : ∀ changed,
      List.Forall₂ (fun m m' => m'.1 = m.1 ∧ leeway m.1 m.2 m'.2) members changed →
        (∀ m ∈ changed, m.2.intact) → r.Yields changed a)
    (recast : Recasts r leeway (ofFields members) v') (whole : v'.intact) :
    r.decode v' = .ok a := by
  generalize form : ofFields members = v at recast
  obtain @⟨members', changed, others, all, values, unknown, order⟩ := recast
  obtain rfl := ofFields_injective form
  have names : members.map Prod.fst = changed.map Prod.fst := by
    rw [← List.forall₂_eq_eq_eq, List.forall₂_map_left_iff, List.forall₂_map_right_iff]
    exact values.imp fun _ _ h => h.1.symm
  have intact : ∀ m ∈ all, m.2.intact := List.forall_mem_map.mp (intact_of_mem whole)
  have yielded := yields changed values fun m mem =>
    intact m (order.mem_iff.mpr (List.mem_append_left _ mem))
  exact Record.ofObject_of_yields clear (names ▸ listed) yielded unknown order intact

theorem decode_exactly (clear : r.names.Nodup)
    (listed : (members.map Prod.fst).Sublist (r.fields.map Field.name))
    (yields : r.Yields members a) (recast : Recasts r exactly (ofFields members) v')
    (whole : v'.intact) : r.decode v' = .ok a :=
  decode_of_recasts clear listed (fun _ values _ => eq_of_exactly values ▸ yields) recast whole

theorem intact_of_spells {part : Part} {s : List Char} (h : Spells part s) :
    match part with
    | .value v => v.intact
    | .items vs => intactItems vs
    | .members ms => intactMembers ms := by
  induction h with
  | @text t _ _ => cases t <;> rfl
  | _ => simp_all [intact, intactItems, intactMembers]

theorem survives {decode : Json → Decoded α} {recasts : Json → Json → Prop} {v : Json}
    (reads : ∀ v', recasts v v' → v'.intact → decode v' = .ok a) (self : recasts v v)
    (written : v.isWritten) : Survives decode recasts v a := by
  have recast (v' : Json) (s : List Char) (other : recasts v v') (spells : Spells (.value v') s) :
      decodeText decode s = .ok a := by
    rw [decodeText_of_spells spells]
    exact reads v' other (intact_of_spells spells)
  exact ⟨recast v _ self (spells_print v written), recast⟩

theorem isWritten_array {vs : List Json} :
    (Json.array vs).isWritten ↔ ∀ v ∈ vs, v.isWritten := by
  simp only [isWritten]
  induction vs with
  | nil => simp [areWritten]
  | cons v vs ih => simp [areWritten, ih]

theorem isWritten_ofFields : (ofFields members).isWritten ↔ ∀ m ∈ members, m.2.isWritten := by
  simp only [ofFields, isWritten]
  induction members with
  | nil => simp [membersAreWritten]
  | cons m members ih => simp [membersAreWritten, ih]

/-- A record survives if it is written with names of its fields, in their order, and comes out of
them. -/
theorem survives_exactly (clear : r.names.Nodup)
    (listed : (members.map Prod.fst).Sublist (r.fields.map Field.name))
    (yields : r.Yields members a) (written : ∀ m ∈ members, m.2.isWritten) :
    Survives r.decode (Recasts r exactly) (ofFields members) a :=
  survives (fun _ => decode_exactly clear listed yields) (Recasts.refl (by simp [exactly]))
    (isWritten_ofFields.mpr written)

end

end Json
end Matchmaking
