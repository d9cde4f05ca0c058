import Matchmaking.Access.Claims
import Matchmaking.Http.Message
import Matchmaking.Proofs.Json.Recast
import Matchmaking.Proofs.Time.Rfc3339
/-! Records survive their JSON form. What is written of a record is read back as the record, and so
is every other text of it, in any spelling, with its members in any order and among members of names
that the record does not know. -/
namespace Matchmaking

open Json (Record Survives Recasts RecastsItems exactly isWritten isWritten_array
  isWritten_ofFields natBelow decode_of_recasts decode_exactly survives_exactly)
open Json.Record (Yields yields_needs yields_may yields_may_of_none)

/-! ### What values are read from -/

namespace Json

@[simp] theorem natBelow_ofNat {bound n : Nat} (small : n < bound) :
    natBelow bound (.ofNat n) = .ok n := by
  simp [natBelow, ofNat, small]

@[simp] theorem id_ofNat {n : Nat} (small : n < idBound) : Json.id (.ofNat n) = .ok n :=
  natBelow_ofNat small

@[simp] theorem age_ofNat {n : Nat} (small : n < ageBound) : age (.ofNat n) = .ok n :=
  natBelow_ofNat small

@[simp] theorem isWritten_ofNat (n : Nat) : (Json.ofNat n).isWritten := rfl

@[simp] theorem isWritten_ofName {α : Type} (name : α → String) (a : α) :
    (ofName name a).isWritten := rfl

@[simp] theorem named_ofName {α : Type} {name : α → String} {ofName? : String → Option α}
    (known : ∀ a, ofName? (name a) = some a) (a : α) : named ofName? (ofName name a) = .ok a := by
  simp [named, ofName, known]

theorem nullable_ofOption {α : Type} {write : α → Json} {decode : Json → Decoded α} {o : Option α}
    (given : ∀ a ∈ o, write a ≠ .null ∧ decode (write a) = .ok a) :
    nullable decode (ofOption write o) = .ok o := by
  rw [nullable_eq_ok_iff]
  cases o with
  | none => exact .inl ⟨rfl, rfl⟩
  | some a => exact .inr ⟨(given a rfl).1, a, (given a rfl).2, rfl⟩

end Json

@[simp] theorem Gender.ofJson_toJson (g : Gender) : ofJson g.toJson = .ok g :=
  Json.named_ofName Gender.ofName?_name g

theorem Gender.nullable_ofOption {o : Option Gender} :
    Json.nullable ofJson (.ofOption toJson o) = .ok o :=
  Json.nullable_ofOption fun g _ => ⟨nofun, ofJson_toJson g⟩

@[simp] theorem Gender.isWritten_ofOption (o : Option Gender) :
    (Json.ofOption toJson o).isWritten := by
  cases o <;> rfl

@[simp] theorem State.ofJson_toJson (s : State) : ofJson s.toJson = .ok s :=
  Json.named_ofName State.ofName?_name s

@[simp] theorem Happening.ofJson_toJson (h : Happening) : ofJson h.toJson = .ok h :=
  Json.named_ofName Happening.ofName?_name h

@[simp] theorem Verdict.ofJson_toJson (v : Verdict) : ofJson v.toJson = .ok v :=
  Json.named_ofName Verdict.ofName?_name v

namespace Timestamp

@[simp] theorem isWritten_toJson (t : Timestamp) : t.toJson.isWritten := rfl

theorem ofJson_toJson {t : Timestamp} (usual : t.IsUsual) : ofJson t.toJson = .ok t := by
  simp [ofJson, toJson, text, read?_print usual]

end Timestamp

/-- The double is written as a number, and that is read back as it. -/
def FloatForm.Keeps (form : FloatForm) (x : Float) : Prop :=
  ∃ n : Numeral, form.write x = .number n ∧ n.fraction.all Char.isDigit ∧
    form.read (.number n) = .ok x

variable {form : FloatForm}

section

variable {x : Float} {o : Option Float}

theorem FloatForm.Keeps.isWritten (keeps : form.Keeps x) : (form.write x).isWritten := by
  obtain ⟨n, write, digits, -⟩ := keeps
  simpa [write, Json.isWritten] using digits

theorem FloatForm.Keeps.read_write (keeps : form.Keeps x) : form.read (form.write x) = .ok x := by
  obtain ⟨n, write, -, read⟩ := keeps
  rw [write, read]

theorem FloatForm.nullable_ofOption (keeps : ∀ x ∈ o, form.Keeps x) :
    Json.nullable form.read (.ofOption form.write o) = .ok o := by
  refine Json.nullable_ofOption fun x given => ⟨?_, (keeps x given).read_write⟩
  obtain ⟨n, write, -⟩ := keeps x given
  simp [write]

theorem FloatForm.isWritten_ofOption (keeps : ∀ x ∈ o, form.Keeps x) :
    (Json.ofOption form.write o).isWritten := by
  cases o with
  | none => rfl
  | some x => exact (keeps x rfl).isWritten

end

namespace Place

def fields (form : FloatForm) : Record Place :=
  Place.mk <$> .needs "latitude" form.read <*> .needs "longitude" form.read

def Fits (form : FloatForm) (p : Place) : Prop := form.Keeps p.latitude ∧ form.Keeps p.longitude

theorem survives {p : Place} (fits : p.Fits form) :
    Survives (ofJson form) (Recasts (fields form) exactly) (p.toJson form) p := by
  obtain ⟨latitude, longitude⟩ := fits
  cases p
  refine survives_exactly (r := fields form) (by simp [fields]) (List.Sublist.refl _) ?_ ?_
  · exact .seq (.map (yields_needs rfl latitude.read_write) _)
      (yields_needs rfl longitude.read_write)
  · simp [latitude.isWritten, longitude.isWritten]

end Place

namespace Profile

def Fits (form : FloatForm) (p : Profile) : Prop :=
  p.userId < Json.idBound ∧ p.age < Json.ageBound ∧ (∀ x ∈ p.latitude, form.Keeps x) ∧
    ∀ x ∈ p.longitude, form.Keeps x

theorem ofJson_of_recasts {p : Profile} {v : Json} (fits : p.Fits form)
    (recast : Recasts (fields form) exactly (p.toJson form) v) (whole : v.intact) :
    ofJson form v = .ok p := by
  obtain ⟨user, age, latitude, longitude⟩ := fits
  cases p
  refine decode_exactly (by simp [fields]) (List.Sublist.refl _) ?_ recast whole
  refine .seq (.seq (.seq (.seq (.seq (.seq (.seq (.map ?_ _) ?_) ?_) ?_) ?_) ?_) ?_) ?_
  · exact yields_needs rfl (Json.id_ofNat user)
  · exact yields_needs rfl rfl
  · exact yields_may rfl Gender.nullable_ofOption
  · exact yields_may rfl (Json.age_ofNat age)
  · exact yields_may rfl rfl
  · exact yields_may rfl (FloatForm.nullable_ofOption latitude)
  · exact yields_may rfl (FloatForm.nullable_ofOption longitude)
  · exact yields_may rfl rfl

theorem isWritten_toJson {p : Profile} (fits : p.Fits form) : (p.toJson form).isWritten := by
  obtain ⟨-, -, latitude, longitude⟩ := fits
  simp [toJson, isWritten_ofFields, isWritten, FloatForm.isWritten_ofOption latitude,
    FloatForm.isWritten_ofOption longitude]

theorem recasts_self (p : Profile) :
    Recasts (fields form) exactly (p.toJson form) (p.toJson form) :=
  Recasts.refl (by simp [exactly])

theorem survives {p : Profile} (fits : p.Fits form) :
    Survives (ofJson form) (Recasts (fields form) exactly) (p.toJson form) p :=
  Json.survives (fun _ => ofJson_of_recasts fits) p.recasts_self (isWritten_toJson fits)

end Profile

namespace Preferences

def Fits (form : FloatForm) (p : Preferences) : Prop :=
  p.userId < Json.idBound ∧ (p.minAge < Json.ageBound ∧ p.maxAge < Json.ageBound) ∧
    (∀ x ∈ p.latitude, form.Keeps x) ∧ (∀ x ∈ p.longitude, form.Keeps x) ∧ form.Keeps p.radiusKm

theorem survives {p : Preferences} (fits : p.Fits form) :
    Survives (ofJson form) (Recasts (fields form) exactly) (p.toJson form) p := by
  obtain ⟨user, ⟨minAge, maxAge⟩, latitude, longitude, radius⟩ := fits
  cases p
  refine survives_exactly (r := fields form) (by simp [fields]) (List.Sublist.refl _) ?_ ?_
  · refine .seq (.seq (.seq (.seq (.seq (.seq (.map ?_ _) ?_) ?_) ?_) ?_) ?_) ?_
    · exact yields_needs rfl (Json.id_ofNat user)
    · exact yields_may rfl Gender.nullable_ofOption
    · exact yields_may rfl (Json.age_ofNat minAge)
    · exact yields_may rfl (Json.age_ofNat maxAge)
    · exact yields_may rfl (FloatForm.nullable_ofOption latitude)
    · exact yields_may rfl (FloatForm.nullable_ofOption longitude)
    · exact yields_may rfl radius.read_write
  · simp [FloatForm.isWritten_ofOption latitude, FloatForm.isWritten_ofOption longitude,
      radius.isWritten]

end Preferences

namespace Attempt

def Fits (a : Attempt) : Prop :=
  a.id < Json.idBound ∧ (a.first < Json.idBound ∧ a.second < Json.idBound) ∧ a.createdAt.IsUsual

theorem survives {a : Attempt} (fits : a.Fits) :
    Survives ofJson (Recasts fields exactly) a.toJson a := by
  obtain ⟨id, ⟨first, second⟩, created⟩ := fits
  cases a
  refine survives_exactly (r := fields) (by simp [fields]) (List.Sublist.refl _) ?_ ?_
  · refine .seq (.seq (.seq (.seq (.map ?_ _) ?_) ?_) ?_) ?_
    · exact yields_needs rfl (Json.id_ofNat id)
    · exact yields_needs rfl (Json.id_ofNat first)
    · exact yields_needs rfl (Json.id_ofNat second)
    · exact yields_needs rfl (State.ofJson_toJson _)
    · exact yields_needs rfl (Timestamp.ofJson_toJson created)
  · simp [Timestamp.toJson, State.toJson, isWritten]

end Attempt

namespace Event

def Fits (e : Event) : Prop :=
  e.id < Json.idBound ∧ e.attempt < Json.idBound ∧ e.createdAt.IsUsual

theorem survives {e : Event} (fits : e.Fits) :
    Survives ofJson (Recasts fields exactly) e.toJson e := by
  obtain ⟨id, attempt, created⟩ := fits
  cases e
  refine survives_exactly (r := fields) (by simp [fields]) (List.Sublist.refl _) ?_ ?_
  · refine .seq (.seq (.seq (.map ?_ _) ?_) ?_) ?_
    · exact yields_needs rfl (Json.id_ofNat id)
    · exact yields_needs rfl (Json.id_ofNat attempt)
    · exact yields_needs rfl (Timestamp.ofJson_toJson created)
    · exact yields_needs rfl (Happening.ofJson_toJson _)
  · simp [Timestamp.toJson, Happening.toJson, isWritten]

end Event

namespace Chat

def Fits (c : Chat) : Prop :=
  c.id < Json.idBound ∧ c.first < Json.idBound ∧ c.second < Json.idBound

theorem survives {c : Chat} (fits : c.Fits) :
    Survives ofJson (Recasts fields exactly) c.toJson c := by
  obtain ⟨id, first, second⟩ := fits
  cases c
  refine survives_exactly (r := fields) (by simp [fields]) (List.Sublist.refl _) ?_ ?_
  · refine .seq (.seq (.map ?_ _) ?_) ?_
    · exact yields_needs rfl (Json.id_ofNat id)
    · exact yields_needs rfl (Json.id_ofNat first)
    · exact yields_needs rfl (Json.id_ofNat second)
  · simp

end Chat

namespace Photo

theorem ofJson_of_recasts {p : Photo} {v : Json} (recast : Recasts fields exactly p.toJson v)
    (whole : v.intact) : ofJson v = .ok p := by
  cases p
  refine decode_exactly (by simp [fields]) (List.Sublist.refl _) ?_ recast whole
  refine .seq (.map ?_ _) ?_
  · exact yields_needs rfl rfl
  · exact yields_needs rfl rfl

@[simp] theorem isWritten_toJson (p : Photo) : p.toJson.isWritten := by
  simp [toJson, isWritten_ofFields, isWritten]

theorem recasts_self (p : Photo) : Recasts fields exactly p.toJson p.toJson :=
  Recasts.refl (by simp [exactly])

end Photo

namespace Showcase

def Fits (form : FloatForm) (s : Showcase) : Prop := s.profile.Fits form

/-- The profile of a showcase may take another form, and so may each of its photos. -/
def leeway (form : FloatForm) : String → Json → Json → Prop
  | "profile" => Recasts (Profile.fields form) exactly
  | "photos" => RecastsItems (Recasts Photo.fields exactly)
  | name => exactly name

theorem list_ofJson {photos : List Photo} {v : Json}
    (recast : RecastsItems (Recasts Photo.fields exactly) (.array (photos.map Photo.toJson)) v)
    (whole : v.intact) : Json.list Photo.ofJson v = .ok photos := by
  generalize form : Json.array (photos.map Photo.toJson) = w at recast
  obtain @⟨vs, vs', each⟩ := recast
  obtain rfl := Json.array.inj form
  rw [List.forall₂_map_left_iff] at each
  simp only [Json.intact] at whole
  rw [Json.list]
  clear form
  induction each with
  | nil => rfl
  | cons first _ ih =>
    simp only [Json.intactItems, Bool.and_eq_true] at whole
    have read := Photo.ofJson_of_recasts first whole.1
    simp [read, ih whole.2, bind, Except.bind, pure, Except.pure]

theorem survives {s : Showcase} (fits : s.Fits form) :
    Survives (ofJson form) (Recasts (fields form) (leeway form)) (s.toJson form) s := by
  cases s with | mk profile photos
  refine Json.survives (fun v recast whole => ?_) (Recasts.refl ?_) (isWritten_ofFields.mpr ?_)
  · refine decode_of_recasts (by simp [fields]) (List.Sublist.refl _) ?_ recast whole
    intro changed values whole
    simp only [List.forall₂_cons_left_iff, List.forall₂_nil_left_iff] at values
    obtain ⟨⟨_, shown⟩, _, ⟨rfl, first⟩, ⟨⟨_, listed⟩, _, ⟨rfl, second⟩, rfl, rfl⟩, rfl⟩ := values
    simp only [List.forall_mem_cons] at whole
    refine .seq (.map ?_ _) ?_
    · exact yields_needs rfl (Profile.ofJson_of_recasts fits first whole.1)
    · exact yields_needs rfl (list_ofJson second whole.2.1)
  · simp only [List.forall_mem_cons]
    refine ⟨profile.recasts_self, .items ?_, by simp⟩
    exact List.forall₂_same.mpr (List.forall_mem_map.mpr fun p _ => p.recasts_self)
  · simp only [List.forall_mem_cons]
    exact ⟨Profile.isWritten_toJson fits, isWritten_array.mpr (by simp), by simp⟩

end Showcase

namespace Notice

theorem survives (n : Notice) : Survives ofJson (Recasts fields exactly) n.toJson n := by
  cases n
  refine survives_exactly (r := fields) (by simp [fields]) (List.Sublist.refl _) ?_ ?_
  · refine .seq (.map ?_ _) ?_
    · exact yields_needs rfl rfl
    · exact yields_needs rfl rfl
  · simp [isWritten]

end Notice

namespace SwipeRequest

def Fits (r : SwipeRequest) : Prop := r.candidate < Json.idBound

theorem survives {r : SwipeRequest} (fits : r.Fits) :
    Survives ofJson (Recasts fields exactly) r.toJson r := by
  cases r
  refine survives_exactly (r := fields) (by simp [fields]) (List.Sublist.refl _) ?_ ?_
  · refine .seq (.map ?_ _) ?_
    · exact yields_needs rfl (Json.id_ofNat fits)
    · exact yields_needs rfl (Verdict.ofJson_toJson _)
  · simp [Verdict.toJson]

end SwipeRequest

namespace SwipeReceipt

theorem survives (r : SwipeReceipt) : Survives ofJson (Recasts fields exactly) r.toJson r := by
  cases r
  refine survives_exactly (r := fields) (by simp [fields]) (List.Sublist.refl _) ?_ ?_
  · refine .map ?_ _
    exact yields_needs rfl rfl
  · simp [isWritten]

end SwipeReceipt

namespace ErrorReport

def Fits (r : ErrorReport) : Prop := r.status < twoTo 16

theorem survives {r : ErrorReport} (fits : r.Fits) :
    Survives ofJson (Recasts fields exactly) r.toJson r := by
  cases r
  refine survives_exactly (r := fields) (by simp [fields]) (List.Sublist.refl _) ?_ ?_
  · refine .seq (.seq (.map ?_ _) ?_) ?_
    · exact yields_needs rfl rfl
    · exact yields_needs rfl rfl
    · exact yields_needs rfl (Json.natBelow_ofNat fits)
  · simp [isWritten]

end ErrorReport

namespace HealthReport

def Fits (r : HealthReport) : Prop := r.timestamp.IsUsual

theorem survives {r : HealthReport} (fits : r.Fits) :
    Survives ofJson (Recasts fields exactly) r.toJson r := by
  cases r
  refine survives_exactly (r := fields) (by simp [fields]) (List.Sublist.refl _) ?_ ?_
  · refine .seq (.seq (.map ?_ _) ?_) ?_
    · exact yields_needs rfl rfl
    · exact yields_needs rfl rfl
    · exact yields_needs rfl (Timestamp.ofJson_toJson fits)
  · simp [isWritten]

end HealthReport

namespace Claims

def Fits (c : Claims) : Prop := c.userId < Json.idBound ∧ ∀ e ∈ c.expires, e < twoTo 64

theorem ofJson_of_recasts {c : Claims} {v : Json} (fits : c.Fits)
    (recast : Recasts fields exactly c.toJson v) (whole : v.intact) : ofJson v = .ok c := by
  obtain ⟨user, expires⟩ := fits
  obtain ⟨userId, _ | e⟩ := c
  · refine decode_exactly (by simp [fields]) ?_ ?_ recast whole
    · exact List.sublist_append_left ["user_id"] ["exp"]
    · exact .seq (.map (yields_needs rfl (Json.id_ofNat user)) _) (yields_may_of_none rfl)
  · refine decode_exactly (by simp [fields]) (List.Sublist.refl _) ?_ recast whole
    have expiry : Json.nullable (natBelow (twoTo 64)) (.ofNat e) = .ok (some e) :=
      congrArg (Except.map some) (Json.natBelow_ofNat (expires e rfl))
    exact .seq (.map (yields_needs rfl (Json.id_ofNat user)) _) (yields_may rfl expiry)

theorem isWritten_toJson (c : Claims) : c.toJson.isWritten := by
  obtain ⟨user, _ | e⟩ := c <;> rfl

theorem recasts_self (c : Claims) : Recasts fields exactly c.toJson c.toJson :=
  Recasts.refl (by simp [exactly])

theorem survives {c : Claims} (fits : c.Fits) :
    Survives ofJson (Recasts fields exactly) c.toJson c :=
  Json.survives (fun _ => ofJson_of_recasts fits) c.recasts_self c.isWritten_toJson

end Claims

end Matchmaking
