/-
# DbInventory.Proofs.Listing.Filter -- what the arguments ask for

Five layers have an opinion on an argument that is not set: the command line, null in a
configuration, the zero value of data, the filter, and the members of a request. The
configuration of a command line is always taken (`takes_arguments`). `FilterFor` says what the
layers come to for the filter of a configuration, and `WireMembers` what they come to for the
body of a request.
-/

import DbInventory.CommandLine.Options
import DbInventory.Proofs.Api.Completeness
import DbInventory.Proofs.Listing.Arguments

namespace DbInventory

open ResourceData (fromConfig fromConfig_eq_ok_iff exists_fromConfig_iff getOk_eq_some_iff)

/-! ## Arguments are taken -/

/-- The listing takes a configuration. -/
def Takes (config : Dict Json) : Prop := ∃ d, fromConfig listingSchema config = .ok d

variable {config config' : Dict Json} {d : ResourceData} {filter : InstanceFilter}

/-- An argument that fits may be put into a configuration. -/
theorem Takes.put (h : Takes config) {name : String} {value : Option Json} {a : Attribute}
    (ha : listingSchema.get? name = some a) (hoptional : a.isOptional = true)
    (hvalue : ∀ v ∈ value, a.accepts v = true) : Takes (Arguments.put name value config) := by
  cases value with
  | none => exact h
  | some v =>
    apply exists_fromConfig_iff.2
    intro key w hw
    rw [Arguments.put, Dict.get?_insert] at hw
    by_cases hkey : key = name
    · rw [if_pos hkey] at hw
      obtain rfl : v = w := Option.some.inj hw
      exact ⟨a, hkey ▸ ha, Attribute.accepts_iff_fits.1 (hvalue v rfl), hoptional⟩
    · rw [if_neg hkey] at hw
      exact exists_fromConfig_iff.1 h key w hw

/-- **The configuration of any arguments is taken.** -/
theorem takes_arguments (a : Arguments) : Takes a.config := by
  have htext : ∀ (value : Option String) (description : String), ∀ v ∈ value.map Json.string,
      (Attribute.argument .string description).accepts v = true := by
    intro value description v hv
    obtain ⟨text, -, rfl⟩ := Option.map_eq_some_iff.1 hv
    rfl
  have hnumber : ∀ (value : Option Int64) (description : String), ∀ v ∈ value.map Json.int64,
      (Attribute.argument .int description).accepts v = true := by
    intro value description v hv
    obtain ⟨n, -, rfl⟩ := Option.map_eq_some_iff.1 hv
    exact decide_eq_true (Int64.toInt_lt n)
  have hempty : Takes ∅ := exists_fromConfig_iff.2 (by simp)
  unfold Arguments.config
  apply Takes.put _ rfl rfl (htext a.resultOutputFile _)
  apply Takes.put _ rfl rfl (htext a.subnetId _)
  apply Takes.put _ rfl rfl (htext a.vpcId _)
  apply Takes.put _ rfl rfl (hnumber a.projectId _)
  exact hempty.put rfl rfl (htext a.id _)

/-! ## The filter of a configuration -/

/-- The filter that a configuration asks for: texts that are not empty, and a project above
zero. -/
structure FilterFor (config : Dict Json) (filter : InstanceFilter) : Prop where
  instanceId : ∀ id, filter.instanceId = some id ↔
    config.get? "id" = some (.string id) ∧ id ≠ ""
  projectId : ∀ p, filter.projectId = some p ↔
    config.get? "project_id" = some (.int64 p) ∧ 1 ≤ p
  vpcId : ∀ id, filter.vpcId = some id ↔ config.get? "vpc_id" = some (.string id) ∧ id ≠ ""
  subnetId : ∀ id, filter.subnetId = some id ↔
    config.get? "subnet_id" = some (.string id) ∧ id ≠ ""

theorem WordInt.toInt64?_eq_some_iff {n : WordInt} {p : Int64} :
    n.toInt64? = some p ↔ n = .ofInt64 p := by
  constructor
  · intro h
    have hlt : n.val < signedLimit := by
      unfold toInt64? at h
      split at h
      next hlt => exact hlt
      next => cases h
    obtain ⟨k, rfl⟩ := lt_signedLimit_iff.1 hlt
    rw [toInt64?_ofInt64] at h
    rw [Option.some.inj h]
  · rintro rfl
    exact toInt64?_ofInt64 p

theorem Json.int64?_eq_some_iff {v : Json} {p : Int64} : v.int64? = some p ↔ v = .int64 p := by
  unfold Json.int64? Json.int64
  split
  next n =>
    rw [WordInt.toInt64?_eq_some_iff]
    simp
  next hnone =>
    constructor
    · intro h
      cases h
    · rintro rfl
      exact absurd rfl (hnone _)

theorem Json.int64_inj {m n : Int64} : Json.int64 m = Json.int64 n ↔ m = n := by
  rw [← Json.int64?_eq_some_iff, show (Json.int64 m).int64? = some m from
    WordInt.toInt64?_ofInt64 m, Option.some.injEq]

theorem nonEmptyText?_eq_some_iff {v : Json} {text : String} :
    nonEmptyText? v = some text ↔ v = .string text ∧ text ≠ "" := by
  cases v <;> simp [nonEmptyText?, Json.string?]

/-- The project of a filter is neither that for any nor below it. -/
theorem projectFilter_eq_ok_iff {v : Option Json} {project : Option Int64}
    (h : projectFilter v = .ok project) {p : Int64} :
    project = some p ↔ v = some (.int64 p) ∧ 0 ≤ p := by
  have hread : v.bind Json.int64? = some p ↔ v = some (.int64 p) := by
    cases v with
    | none => simp
    | some v => simp [Json.int64?_eq_some_iff]
  rw [← hread]
  unfold projectFilter at h
  split at h
  next hnone =>
    obtain rfl := Except.ok.inj h
    simp [hnone]
  next id hid =>
    split at h
    next hany =>
      obtain rfl := Except.ok.inj h
      subst hany
      rw [hid]
      constructor
      · intro h
        cases h
      · rintro ⟨hp, hle⟩
        obtain rfl := Option.some.inj hp
        exact absurd hle (by decide)
    next hany =>
      split at h
      · cases h
      next hneg =>
        obtain rfl := Except.ok.inj h
        rw [hid]
        constructor
        · intro hp
          obtain rfl := Option.some.inj hp
          exact ⟨rfl, Int64.not_lt.1 hneg⟩
        · exact And.left

variable {key text : String}

/-- An argument that is read as a text that is not empty is configured as that text. -/
theorem text_of_getOk (hconfig : fromConfig listingSchema config = .ok d)
    (hkey : ∃ a, listingSchema.get? key = some a ∧ a.type = .string) :
    (d.getOk key).bind nonEmptyText? = some text ↔
      config.get? key = some (.string text) ∧ text ≠ "" := by
  obtain ⟨rfl, -⟩ := fromConfig_eq_ok_iff.1 hconfig
  obtain ⟨a, ha, htype⟩ := hkey
  simp only [Option.bind_eq_some_iff, getOk_eq_some_iff, nonEmptyText?_eq_some_iff, ha,
    ResourceData.stored?, Dict.get?_empty, Option.none_or]
  constructor
  · rintro ⟨v, ⟨a', -, hv, -, -⟩, rfl, hne⟩
    exact ⟨hv, hne⟩
  · rintro ⟨hv, hne⟩
    exact ⟨_, ⟨a, rfl, hv, by simp, by simpa [htype, ValueType.zero] using hne⟩, rfl, hne⟩

/-- The empty text is not read as a text, so that it makes no difference which way is taken. -/
theorem text_of_get (hschema : d.schema = listingSchema)
    (hkey : ∃ a, listingSchema.get? key = some a ∧ a.type = .string) :
    nonEmptyText? (d.get key) = (d.getOk key).bind nonEmptyText? := by
  obtain ⟨a, ha, htype⟩ := hkey
  rw [ResourceData.getOk_eq (hschema ▸ ha), htype]
  by_cases hzero : d.get key = ValueType.zero .string
  · rw [if_pos hzero, hzero]
    rfl
  · rw [if_neg hzero]
    rfl

/-- A project that is seen is configured, and it is not zero. -/
theorem getOk_projectId_iff (hconfig : fromConfig listingSchema config = .ok d) {p : Int64} :
    d.getOk "project_id" = some (.int64 p) ↔
      config.get? "project_id" = some (.int64 p) ∧ p ≠ 0 := by
  obtain ⟨rfl, -⟩ := fromConfig_eq_ok_iff.1 hconfig
  obtain ⟨a, ha, htype⟩ := get?_projectId
  simp only [getOk_eq_some_iff, ha, ResourceData.stored?, Dict.get?_empty, Option.none_or]
  constructor
  · rintro ⟨a', ha', hv, -, hzero⟩
    obtain rfl := Option.some.inj ha'
    rw [htype] at hzero
    exact ⟨hv, fun hp => hzero (hp ▸ rfl)⟩
  · rintro ⟨hv, hp⟩
    refine ⟨a, rfl, hv, by simp [Json.int64], ?_⟩
    rw [htype]
    exact fun hzero => hp (Json.int64_inj.1 hzero)

/-- **The filter of a configuration** is the one that the configuration asks for. -/
theorem filterFor_of_config (hconfig : fromConfig listingSchema config = .ok d)
    (hfilter : filterOf d = .ok filter) : FilterFor config filter := by
  have hschema : d.schema = listingSchema := by rw [(fromConfig_eq_ok_iff.1 hconfig).1]
  unfold filterOf at hfilter
  obtain ⟨project, hproject, hfilter⟩ := bind_eq_ok.1 hfilter
  obtain rfl := Except.ok.inj hfilter
  refine ⟨?_, ?_, ?_, ?_⟩
  · intro id
    rw [text_of_get hschema ⟨_, rfl, rfl⟩]
    exact text_of_getOk hconfig ⟨_, rfl, rfl⟩
  · intro p
    rw [projectFilter_eq_ok_iff hproject, getOk_projectId_iff hconfig, and_assoc]
    have hone : p ≠ 0 ∧ 0 ≤ p ↔ 1 ≤ p := by grind
    rw [hone]
  · intro id
    exact text_of_getOk hconfig ⟨_, rfl, rfl⟩
  · intro id
    exact text_of_getOk hconfig ⟨_, rfl, rfl⟩

/-- A filter of a configuration has no project below zero. -/
theorem FilterFor.projectId_nonneg (h : FilterFor config filter) :
    ∀ p ∈ filter.projectId, 0 ≤ p := by
  intro p hp
  have hone := ((h.projectId p).1 hp).2
  grind

/-- The project is a whole number below the one that stands for any. -/
def BelowAny (config : Dict Json) : Prop :=
  ∃ p, config.get? "project_id" = some (.int64 p) ∧ p < -1

/-- The project is not chosen: it is absent, null, zero, or the one that stands for any. -/
def AnyProject (config : Dict Json) : Prop :=
  config.get? "project_id" = none ∨ config.get? "project_id" = some .null ∨
    config.get? "project_id" = some (.int64 0) ∨ config.get? "project_id" = some (.int64 (-1))

/-- The value of a project that is not chosen is none, or a number that chooses none. -/
theorem AnyProject.eq (h : AnyProject config) {p : Int64}
    (hp : config.get? "project_id" = some (.int64 p)) : p = 0 ∨ p = -1 := by
  unfold AnyProject at h
  rw [hp] at h
  rcases h with h | h | h | h
  · cases h
  · cases h
  · exact Or.inl (Json.int64_inj.1 (Option.some.inj h))
  · exact Or.inr (Json.int64_inj.1 (Option.some.inj h))

theorem AnyProject.not_below (h : AnyProject config) : ¬BelowAny config := by
  rintro ⟨p, hp, hlt⟩
  rcases h.eq hp with rfl | rfl
  · exact absurd hlt (by decide)
  · exact absurd hlt (by decide)

theorem FilterFor.projectId_of_any (h : FilterFor config filter) (hany : AnyProject config) :
    filter.projectId = none := by
  apply Option.eq_none_iff_forall_ne_some.2
  intro p hp
  obtain ⟨hvalue, hone⟩ := (h.projectId p).1 hp
  rcases hany.eq hvalue with rfl | rfl
  · exact absurd hone (by decide)
  · exact absurd hone (by decide)

/-- Two configurations that choose no project and agree on all else ask for one filter. -/
theorem FilterFor.eq_of_any {filter' : InstanceFilter} (h : FilterFor config filter)
    (h' : FilterFor config' filter') (hany : AnyProject config) (hany' : AnyProject config')
    (hsame : ∀ key, key ≠ "project_id" → config.get? key = config'.get? key) :
    filter = filter' := by
  have hid : filter.instanceId = filter'.instanceId := by
    apply Option.ext
    intro id
    rw [h.instanceId, h'.instanceId, hsame "id" (by decide)]
  have hvpc : filter.vpcId = filter'.vpcId := by
    apply Option.ext
    intro id
    rw [h.vpcId, h'.vpcId, hsame "vpc_id" (by decide)]
  have hsubnet : filter.subnetId = filter'.subnetId := by
    apply Option.ext
    intro id
    rw [h.subnetId, h'.subnetId, hsame "subnet_id" (by decide)]
  have hproject : filter.projectId = filter'.projectId := by
    rw [h.projectId_of_any hany, h'.projectId_of_any hany']
  cases filter
  cases filter'
  simp_all

/-! ## The members of a request -/

/-- The members of a listing request, as a configuration decides them: each of six names once
at most, and each member with its value just if the configuration asks for it. -/
structure WireMembers (config : Dict Json) (offset : Nat) (members : List (String × Json)) :
    Prop where
  names : (members.map Prod.fst).Sublist
    ["ProjectId", "InstanceIdSet", "VpcId", "SubnetId", "Offset", "Limit"]
  projectId : ∀ v, ("ProjectId", v) ∈ members ↔
    ∃ p, (config.get? "project_id" = some (.int64 p) ∧ 1 ≤ p) ∧ .int64 p = v
  instanceIdSet : ∀ v, ("InstanceIdSet", v) ∈ members ↔
    ∃ id, (config.get? "id" = some (.string id) ∧ id ≠ "") ∧ .array [.string id] = v
  vpcId : ∀ v, ("VpcId", v) ∈ members ↔
    ∃ id, (config.get? "vpc_id" = some (.string id) ∧ id ≠ "") ∧ .string id = v
  subnetId : ∀ v, ("SubnetId", v) ∈ members ↔
    ∃ id, (config.get? "subnet_id" = some (.string id) ∧ id ≠ "") ∧ .string id = v
  offset : ∀ v, ("Offset", v) ∈ members ↔ v = .uint64 (.ofNat offset)
  limit : ∀ v, ("Limit", v) ∈ members ↔ v = .uint64 20

namespace Client

theorem mem_optionalMember {name name' : String} {value : Option Json} {v : Json} :
    (name, v) ∈ optionalMember name' value ↔ name = name' ∧ value = some v := by
  cases value <;> simp [optionalMember, eq_comm]

theorem names_optionalMember (name : String) (value : Option Json) :
    ((optionalMember name value).map Prod.fst).Sublist [name] := by
  cases value <;> simp [optionalMember]

/-- **The body of a request has the members that the configuration decides.** -/
theorem wireMembers_of_filter (h : FilterFor config filter) (offset : Nat) :
    ∃ members, listBody filter offset = .object members ∧ WireMembers config offset members := by
  refine ⟨_, listBody_eq filter offset, ?_⟩
  refine ⟨?_, ?_, ?_, ?_, ?_, ?_, ?_⟩
  · simp only [filterMembers, List.map_append]
    exact ((((names_optionalMember _ _).append (names_optionalMember _ _)).append
      (names_optionalMember _ _)).append (names_optionalMember _ _)).append (.refl _)
  · intro v
    simp [filterMembers, mem_optionalMember, h.projectId]
  · intro v
    simp [filterMembers, mem_optionalMember, h.instanceId]
  · intro v
    simp [filterMembers, mem_optionalMember, h.vpcId]
  · intro v
    simp [filterMembers, mem_optionalMember, h.subnetId]
  · intro v
    simp [filterMembers, mem_optionalMember, countJson]
  · intro v
    simp [filterMembers, mem_optionalMember, countJson, listLimit]

end Client

end DbInventory
