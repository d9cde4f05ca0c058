import Matchmaking.Json.Record
import Mathlib.Data.List.Nodup
import Mathlib.Data.List.Pairwise
/-! What a record takes from the members of an object. A member goes to the first field that
answers to its key; `collect` succeeds when every member can be gone past and no field is answered
twice, and then it has found exactly what the members offer. Where no two fields answer to one
name, a field's value is that of the only member that bears one of its names. -/
namespace Matchmaking
namespace Json

abbrev Members := List (Option String × Json)

def Field.names (f : Field) : List String := f.name :: f.aliases

theorem Field.answers_iff {f : Field} {key : String} : f.answers key = true ↔ key ∈ f.names := by
  rw [answers, names, Bool.or_eq_true, beq_iff_eq, List.contains_iff_mem, List.mem_cons,
    eq_comm]

def under (names : List String) : Json → List Json
  | .object members => members.filterMap fun m => if m.1.any names.contains then some m.2 else none
  | _ => []

namespace Record

def addressee? (fields : List Field) (m : Option String × Json) : Option Field :=
  m.1.bind fun key => fields.find? (·.answers key)

def offers (fields : List Field) (members : Members) : Found :=
  members.filterMap fun m => (addressee? fields m).map fun f => (f.name, m.2)

/-- The member is no reason to stop: its key is a text, and its value passes the check of its
field or, where no field asks for it, is whole. -/
def Passes (fields : List Field) (m : Option String × Json) : Prop :=
  m.1.isSome ∧
    match addressee? fields m with
    | some f => f.check m.2 = .ok ()
    | none => m.2.intact

section

variable {fields : List Field} {members : Members}

theorem offers_cons_of_none {m : Option String × Json} (h : addressee? fields m = none) :
    offers fields (m :: members) = offers fields members := by
  simp [offers, h]

theorem offers_cons_of_some {m : Option String × Json} {f : Field}
    (h : addressee? fields m = some f) :
    offers fields (m :: members) = (f.name, m.2) :: offers fields members := by
  simp [offers, h]

theorem lookup_cons_eq_none {name key : String} {v : Json} {found : Found} :
    List.lookup name ((key, v) :: found) = none ↔ found.lookup name = none ∧ name ≠ key := by
  rw [List.lookup_cons]
  cases same : name == key with
  | true => simp [beq_iff_eq.mp same]
  | false => simp [beq_eq_false_iff_ne.mp same, -List.lookup_eq_none_iff]

/-- `collect` succeeds exactly when each member passes and no field is offered a value twice, or one
that has been found before. -/
theorem collect_eq_ok_iff {found result : Found} :
    collect fields found members = .ok result ↔
      (∀ m ∈ members, Passes fields m) ∧
        (∀ offer ∈ offers fields members, found.lookup offer.1 = none) ∧
          ((offers fields members).map Prod.fst).Nodup ∧
            (offers fields members).reverse ++ found = result := by
  induction members generalizing found with
  | nil => simp [collect, offers]
  | cons m members ih =>
    obtain ⟨_ | key, v⟩ := m
    · simp [collect, Passes]
    · cases addressed : fields.find? (·.answers key) with
      | none =>
        have passes : Passes fields (some key, v) ↔ v.intact := by
          simp [Passes, addressee?, addressed]
        rw [offers_cons_of_none (m := (some key, v)) addressed]
        by_cases whole : v.intact <;> simp [collect, addressed, whole, passes, ih]
      | some f =>
        have passes : Passes fields (some key, v) ↔ f.check v = .ok () := by
          simp [Passes, addressee?, addressed]
        rw [offers_cons_of_some (m := (some key, v)) addressed]
        cases missing : found.lookup f.name with
        | some w => simp [collect, addressed, missing, -List.lookup_eq_none_iff]
        | none =>
          cases checked : f.check v with
          | error e => simp [collect, addressed, missing, checked, passes, bind, Except.bind]
          | ok =>
            have apart : (∀ offer ∈ offers fields members,
                List.lookup offer.1 ((f.name, v) :: found) = none) ↔
                (∀ offer ∈ offers fields members, found.lookup offer.1 = none) ∧
                  f.name ∉ (offers fields members).map Prod.fst := by
              simp only [lookup_cons_eq_none, imp_and, forall_and, List.mem_map, not_exists,
                not_and, ne_eq]
            simp only [collect, addressed, missing, checked, passes, bind, Except.bind, ih, apart,
              List.forall_mem_cons, List.map_cons, List.nodup_cons, List.reverse_cons,
              List.append_assoc, List.singleton_append, Option.isSome_none, Bool.false_eq_true,
              if_false, true_and, and_assoc]

theorem toList_lookup_reverse {found : Found} (once : (found.map Prod.fst).Nodup) (name : String) :
    (found.reverse.lookup name).toList =
      found.filterMap fun offer => if offer.1 = name then some offer.2 else none := by
  induction found with
  | nil => rfl
  | cons offer found ih =>
    obtain ⟨key, v⟩ := offer
    rw [List.map_cons, List.nodup_cons] at once
    have rest := ih once.2
    rw [List.reverse_cons, List.lookup_append, List.filterMap_cons]
    by_cases same : key = name
    · subst same
      have no_other : found.filterMap (fun o => if o.1 = key then some o.2 else none) = [] :=
        List.filterMap_eq_nil_iff.mpr fun o ho =>
          if_neg fun h => once.1 (List.mem_map.mpr ⟨o, ho, h⟩)
      rw [no_other] at rest ⊢
      rw [Option.toList_eq_nil_iff.mp rest]
      simp
    · have differs : (name == key) = false := beq_eq_false_iff_ne.mpr (Ne.symm same)
      simp [List.lookup_cons, differs, same, rest]

end

section

variable {fields : List Field} {f g : Field}

theorem eq_of_shared_name (clear : (fields.flatMap Field.names).Nodup) (hf : f ∈ fields)
    (hg : g ∈ fields) {key : String} (inF : key ∈ f.names) (inG : key ∈ g.names) : f = g := by
  by_contra other
  have symm : Std.Symm (Function.onFun List.Disjoint Field.names) :=
    ⟨fun _ _ h _ inG inF => h inF inG⟩
  have apart := (List.nodup_flatMap.mp clear).2.forall hf hg other
  exact apart inF inG

theorem addressee?_eq_some_iff (clear : (fields.flatMap Field.names).Nodup) (hf : f ∈ fields)
    {m : Option String × Json} : addressee? fields m = some f ↔ m.1.any f.names.contains := by
  obtain ⟨_ | key, v⟩ := m
  · simp [addressee?]
  · simp only [addressee?, Option.bind_some, Option.any_some, List.contains_iff_mem]
    constructor
    · intro found
      have answers : f.answers key := by simpa using List.find?_some found
      exact Field.answers_iff.mp answers
    · intro bears
      cases found : fields.find? (·.answers key) with
      | none => exact absurd (Field.answers_iff.mpr bears) (List.find?_eq_none.mp found f hf)
      | some g =>
        have answers : g.answers key := by simpa using List.find?_some found
        rw [eq_of_shared_name clear hf (List.mem_of_find?_eq_some found) bears
          (Field.answers_iff.mp answers)]

theorem mem_of_addressee? {m : Option String × Json} (h : addressee? fields m = some f) :
    f ∈ fields := by
  obtain ⟨key, -, found⟩ := Option.bind_eq_some_iff.mp h
  exact List.mem_of_find?_eq_some found

theorem offers_of_field (clear : (fields.flatMap Field.names).Nodup) (hf : f ∈ fields)
    (members : Members) :
    (offers fields members).filterMap (fun o => if o.1 = f.name then some o.2 else none) =
      under f.names (.object members) := by
  rw [offers, List.filterMap_filterMap, under]
  refine List.filterMap_congr fun m _ => ?_
  have reaches := addressee?_eq_some_iff (m := m) clear hf
  cases addressed : addressee? fields m with
  | none =>
    rw [addressed] at reaches
    simp [← reaches]
  | some g =>
    have same : g.name = f.name ↔ g = f := by
      refine ⟨fun h => ?_, congrArg Field.name⟩
      exact eq_of_shared_name clear (mem_of_addressee? addressed) hf List.mem_cons_self
        (List.mem_cons.mpr (.inl h))
    rw [addressed, Option.some.injEq] at reaches
    simp only [Option.map_some, Option.bind_some, same, reaches]

variable {α : Type} {r : Record α} {v : Json} {a : α}

theorem ofObject_eq_ok_iff :
    r.ofObject v = .ok a ↔ ∃ members, v = .object members ∧
      (∀ m ∈ members, Passes r.fields m) ∧ ((offers r.fields members).map Prod.fst).Nodup ∧
        r.build (offers r.fields members).reverse = .ok a := by
  cases v with
  | object members =>
    have collected : (collect r.fields [] members >>= r.build) = .ok a ↔
        ∃ found, collect r.fields [] members = .ok found ∧ r.build found = .ok a := by
      cases collect r.fields [] members <;> simp [bind, Except.bind]
    rw [ofObject, collected]
    simp [collect_eq_ok_iff, and_assoc]
  | _ => simp [ofObject]

theorem exists_found_of_ofObject (clear : (r.fields.flatMap Field.names).Nodup)
    (h : r.ofObject v = .ok a) :
    ∃ found, r.build found = .ok a ∧
      ∀ name aliases, name :: aliases ∈ r.fields.map Field.names →
        (found.lookup name).toList = v.under (name :: aliases) := by
  obtain ⟨members, rfl, -, once, built⟩ := ofObject_eq_ok_iff.mp h
  refine ⟨_, built, fun name aliases isField => ?_⟩
  obtain ⟨f, hf, same⟩ := List.mem_map.mp isField
  obtain ⟨rfl, rfl⟩ := List.cons.inj same
  exact (toList_lookup_reverse once f.name).trans (offers_of_field clear hf members)

end

/-! ### How records are put together -/

section

variable {α β : Type} {r : Record α} {found : Found} {b : β}

@[simp] theorem map_build_iff {g : α → β} :
    (g <$> r).build found = .ok b ↔ ∃ a, r.build found = .ok a ∧ g a = b := by
  change (r.build found).map g = .ok b ↔ _
  cases r.build found <;> simp [Except.map]

@[simp] theorem seq_build_iff {f : Record (α → β)} :
    (f <*> r).build found = .ok b ↔
      ∃ g, f.build found = .ok g ∧ ∃ a, r.build found = .ok a ∧ g a = b := by
  change (do let g ← f.build found; return g (← r.build found)) = .ok b ↔ _
  cases f.build found <;> cases r.build found <;> simp [bind, Except.bind, pure, Except.pure]

variable {decode : Json → Decoded α} {name : String} {a : α}

@[simp] theorem needs_build_iff {aliases : List String} :
    (needs name decode aliases).build found = .ok a ↔
      ∃ v, found.lookup name = some v ∧ decode v = .ok a := by
  cases value : found.lookup name <;> simp [needs, value]

@[simp] theorem may_build_iff {default : α} :
    (may name decode default).build found = .ok a ↔
      (found.lookup name = none ∧ default = a) ∨
        ∃ v, found.lookup name = some v ∧ decode v = .ok a := by
  cases value : found.lookup name <;> simp [may, value]

end

end Record

/-! ### What values are read from -/

section

variable {α : Type} {v : Json} {a : α}

theorem natBelow_eq_ok_iff {bound n : Nat} :
    natBelow bound v = .ok n ↔ ∃ d, v = .number d ∧ d.toNat? = some n ∧ n < bound := by
  cases v with
  | number d =>
    cases whole : d.toNat? with
    | none => simp [natBelow, whole]
    | some k =>
      have read : natBelow bound (.number d) = .ok n ↔ k < bound ∧ k = n := by
        by_cases small : k < bound <;> simp [natBelow, whole, small]
      constructor
      · intro h
        obtain ⟨small, rfl⟩ := read.mp h
        exact ⟨d, rfl, whole, small⟩
      · rintro ⟨_, ⟨⟩, same, small⟩
        obtain rfl := Option.some.inj (whole.symm.trans same)
        exact read.mpr ⟨small, rfl⟩
  | _ => simp [natBelow]

theorem nullable_eq_ok_iff {decode : Json → Decoded α} {o : Option α} :
    nullable decode v = .ok o ↔
      (v = .null ∧ o = none) ∨ v ≠ .null ∧ ∃ a, decode v = .ok a ∧ o = some a := by
  fun_cases nullable decode v with
  | case1 => simp [eq_comm]
  | case2 =>
    have given : v ≠ .null := ‹_›
    cases decoded : decode v <;> simp [given, Except.map, eq_comm]

theorem named_eq_ok_iff {ofName? : String → Option α} :
    named ofName? v = .ok a ↔
      ∃ name, ofName? name = some a ∧ (v = .text name ∨ v = ofFields [(name, .null)]) := by
  fun_cases named ofName? v with
  | case1 s => cases named : ofName? s <;> simp [named, ofFields]
  | case2 key v rest unknown => simp +contextual [ofFields, unknown]
  | case3 key a known => simp [ofFields, known]
  | case4 key v rest a known other =>
    have longer : object ((some key, v) :: rest) ≠ ofFields [(key, .null)] := by
      intro h
      simp only [ofFields, List.map_cons, List.map_nil, object.injEq, List.cons.injEq,
        Prod.mk.injEq, true_and] at h
      exact other h.1 h.2
    refine ⟨nofun, ?_⟩
    rintro ⟨name, -, h | h⟩
    · cases h
    · obtain rfl : key = name := by simp_all [ofFields]
      exact absurd h longer
  | case5 v noText noObject =>
    refine ⟨nofun, ?_⟩
    rintro ⟨name, -, rfl | rfl⟩
    · exact (noText name rfl).elim
    · exact (noObject name .null [] rfl).elim

end

end Json
end Matchmaking
