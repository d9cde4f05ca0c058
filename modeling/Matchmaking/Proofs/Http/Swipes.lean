import Matchmaking.Proofs.Record.RoundTrip
/-! Which texts decode to swipes. The object of a swipe has one candidate, under either of two
names, and one verdict. Members of other names may hold anything, but every key has to denote a
text. Which of its names the candidate has makes no difference, even where the text is refused. -/
namespace Matchmaking

open Json (Record Members Spells under ofFields decodeText decodeText_of_spells intact_of_mem
  intact_of_spells natBelow_eq_ok_iff named_eq_ok_iff)
open Json.Record (addressee? collect ofObject_of_under exists_found_of_ofObject yields_needs)

theorem Numeral.eq_ofNat_of_toNat? {d : Numeral} {n : Nat} (whole : d.toNat? = some n) :
    d = .ofNat n := by
  unfold toNat? at whole
  split at whole
  · obtain rfl := Option.some.inj whole
    rfl
  · simp at whole

namespace Json.Record

theorem collect_congr {fields : List Field} {members members' : Members}
    (alike : List.Forall₂ (fun m m' => m'.2 = m.2 ∧ m'.1.isSome = m.1.isSome ∧
      addressee? fields m' = addressee? fields m) members members') (found : Found) :
    collect fields found members' = collect fields found members := by
  induction alike generalizing found with
  | nil => rfl
  | @cons m m' _ _ first _ ih =>
    obtain ⟨key, value⟩ := m
    obtain ⟨key', value'⟩ := m'
    obtain ⟨rfl, named, addressed⟩ := first
    cases key with
    | none =>
      obtain rfl := Option.isNone_iff_eq_none.mp (by simpa using named)
      rfl
    | some key =>
      obtain ⟨key', rfl⟩ := Option.isSome_iff_exists.mp named
      simp only [addressee?, Option.bind_some] at addressed
      simp only [collect, addressed, ih]

end Json.Record

namespace SwipeRequest

def candidateNames : List String := ["candidateId", "candidate_id"]

/-- A member stays as it is, or goes from one of a candidate's names to another. -/
inductive Renames : Option String × Json → Option String × Json → Prop
  | stays (m : Option String × Json) : Renames m m
  | renamed {name name' : String} {v : Json} (old : name ∈ candidateNames)
      (new : name' ∈ candidateNames) : Renames (some name, v) (some name', v)

def Tells (verdict : Verdict) (v : Json) : Prop :=
  v = .text verdict.name ∨ v = ofFields [(verdict.name, .null)]

theorem names_clear : fields.names.Nodup := by simp [fields]

theorem ofJson_verdict_iff {verdict : Verdict} {v : Json} :
    Verdict.ofJson v = .ok verdict ↔ Tells verdict v := by
  rw [Verdict.ofJson, named_eq_ok_iff]
  constructor
  · rintro ⟨name, known, told⟩
    obtain rfl := name_of_ofNameIn? known
    exact told
  · exact fun told => ⟨verdict.name, verdict.ofName?_name, told⟩

theorem ofJson_candidate_iff {n : Nat} {v : Json} :
    Json.id v = .ok n ↔ v = .ofNat n ∧ n < Json.idBound := by
  rw [Json.id, natBelow_eq_ok_iff]
  constructor
  · rintro ⟨d, rfl, whole, small⟩
    rw [Numeral.eq_ofNat_of_toNat? whole]
    exact ⟨rfl, small⟩
  · rintro ⟨rfl, small⟩
    exact ⟨.ofNat n, rfl, Numeral.toNat?_ofNat n, small⟩

theorem ofJson_eq_ok_iff {members : Members} {r : SwipeRequest}
    (whole : (Json.object members).intact) :
    ofJson (.object members) = .ok r ↔ (∀ m ∈ members, m.1.isSome) ∧
      under candidateNames (.object members) = [.ofNat r.candidate] ∧ r.candidate < Json.idBound ∧
        ∃ v, under ["verdict"] (.object members) = [v] ∧ Tells r.verdict v := by
  change fields.ofObject (.object members) = .ok r ↔ _
  constructor
  · intro read
    obtain ⟨_, ⟨⟩, passes, -, -⟩ := Record.ofObject_eq_ok_iff.mp read
    obtain ⟨found, built, only⟩ := exists_found_of_ofObject names_clear read
    have candidates := only "candidateId" ["candidate_id"] (by decide)
    have verdicts := only "verdict" [] (by decide)
    simp only [fields, Record.seq_build_iff, Record.map_build_iff, Record.needs_build_iff] at built
    obtain ⟨_, ⟨candidate, ⟨id, hid, readId⟩, rfl⟩, verdict, ⟨v, hv, readVerdict⟩, rfl⟩ := built
    obtain ⟨rfl, small⟩ := ofJson_candidate_iff.mp readId
    rw [hid, Option.toList_some] at candidates
    rw [hv, Option.toList_some] at verdicts
    exact ⟨fun m mem => (passes m mem).1, candidates.symm, small, v, verdicts.symm,
      ofJson_verdict_iff.mp readVerdict⟩
  · rintro ⟨keys, candidates, small, v, verdicts, tells⟩
    have yields : fields.Yields [("candidateId", .ofNat r.candidate), ("verdict", v)] r := by
      cases r
      refine .seq (.map ?_ _) ?_
      · exact yields_needs rfl (Json.id_ofNat small)
      · exact yields_needs rfl (ofJson_verdict_iff.mpr tells)
    refine ofObject_of_under names_clear yields keys (intact_of_mem whole) ?_
    exact List.forall_mem_cons.mpr ⟨candidates, List.forall_mem_cons.mpr ⟨verdicts, by simp⟩⟩

theorem addressee?_candidate : ∀ name ∈ candidateNames, ∀ v,
    addressee? fields.fields (some name, v) = fields.fields.head? := by
  simp [candidateNames]
  exact ⟨fun _ => rfl, fun _ => rfl⟩

theorem ofJson_renames {members members' : Members}
    (renames : List.Forall₂ Renames members members') :
    ofJson (.object members') = ofJson (.object members) := by
  have collected : Record.collect fields.fields [] members' =
      Record.collect fields.fields [] members := by
    refine Record.collect_congr (renames.imp fun m m' renames => ?_) []
    cases renames with
    | stays => exact ⟨rfl, rfl, rfl⟩
    | renamed old new =>
      exact ⟨rfl, rfl, (addressee?_candidate _ new _).trans (addressee?_candidate _ old _).symm⟩
  change fields.ofObject (.object members') = fields.ofObject (.object members)
  rw [Record.ofObject, Record.ofObject, collected]

/-- The text of an object decodes to a swipe exactly if every key denotes a text, one member has a
candidate's name and holds an integer token below 2^64, and one is the verdict. Renaming members
from one of the candidate's names to the other changes neither the swipe nor the error. -/
theorem decodeText_swipe {members : Members} {text : List Char}
    (spelled : Spells (.value (.object members)) text) :
    (∀ r : SwipeRequest, decodeText ofJson text = .ok r ↔
      (∀ m ∈ members, m.1.isSome) ∧
        under candidateNames (.object members) = [.ofNat r.candidate] ∧
        r.candidate < Json.idBound ∧
        ∃ v, under ["verdict"] (.object members) = [v] ∧ Tells r.verdict v) ∧
    ∀ members' text', List.Forall₂ Renames members members' →
      Spells (.value (.object members')) text' →
        decodeText ofJson text' = decodeText ofJson text := by
  constructor
  · intro r
    rw [decodeText_of_spells spelled, ofJson_eq_ok_iff (intact_of_spells spelled)]
  · intro members' text' renames spelled'
    rw [decodeText_of_spells spelled, decodeText_of_spells spelled', ofJson_renames renames]

/-- A candidate under its second name, after a member of an unknown name. -/
theorem decodeText_swipe_of_alias :
    let members : Members :=
      [(some "verdict", .text "like"), (some "note", .array [.null]),
        (some "candidate_id", .ofNat 7)]
    let members' : Members :=
      [(some "verdict", .text "like"), (some "note", .array [.null]),
        (some "candidateId", .ofNat 7)]
    let text := (Json.object members).print
    let text' := (Json.object members').print
    decodeText ofJson text = .ok ⟨7, .like⟩ ∧ decodeText ofJson text' = decodeText ofJson text := by
  intro members members' text text'
  have spelled : Spells (.value (.object members)) text := Json.spells_print _ rfl
  have spelled' : Spells (.value (.object members')) text' := Json.spells_print _ rfl
  have renames : List.Forall₂ Renames members members' :=
    .cons (.stays _) (.cons (.stays _) (.cons (.renamed (by decide) (by decide)) .nil))
  obtain ⟨read, renamed⟩ := decodeText_swipe spelled
  refine ⟨(read ⟨7, .like⟩).mpr ⟨by decide, rfl, by decide, .text "like", rfl, .inl rfl⟩, ?_⟩
  exact renamed members' text' renames spelled'

theorem refuses_nameless {members : Members} {text : List Char} {r : SwipeRequest}
    (spelled : Spells (.value (.object members)) text) (nameless : none ∈ members.map Prod.fst) :
    decodeText ofJson text ≠ .ok r := by
  rw [decodeText_of_spells spelled]
  intro read
  obtain ⟨m, mem, none⟩ := List.mem_map.mp nameless
  have named := ((ofJson_eq_ok_iff (intact_of_spells spelled)).mp read).1 m mem
  simp [none] at named

/-- One candidate and one verdict are not enough beside a key with half of a surrogate pair. -/
theorem refuses_half_pair :
    let members : Members :=
      [(some "candidateId", .ofNat 7), (some "verdict", .text "like"), (none, .ofNat 0)]
    let text := "\x7b\"candidateId\":7,\"verdict\":\"like\",\"\\ud800\":0\x7d".toList
    Spells (.value (.object members)) text ∧
      under candidateNames (.object members) = [.ofNat 7] ∧ 7 < Json.idBound ∧
      under ["verdict"] (.object members) = [.text "like"] ∧ Tells .like (.text "like") ∧
      ∀ r, decodeText ofJson text ≠ .ok r := by
  intro members text
  have spelled : Spells (.value (.object members)) text := Json.spells_print _ rfl
  exact ⟨spelled, rfl, by decide, rfl, .inl rfl, fun r => refuses_nameless spelled (by decide)⟩

end SwipeRequest
end Matchmaking
