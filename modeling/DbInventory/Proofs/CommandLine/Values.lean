/-
# DbInventory.Proofs.CommandLine.Values -- what the options of a listing come to

A listing's options are written with their values behind an equals sign, so any text can be a
value. One such argument takes its option up or fails (`readOptions_cons`), and by induction a
line of them is read exactly if no option is repeated and each takes its value
(`readOptions_eq_ok_iff`). What an option comes to is then settled by the line, or else by the
option's variable, or else by its default (`ValueFrom`), and the order of the line does not
matter (`Arguments.options_settled`).
-/

import DbInventory.CommandLine.Help
import DbInventory.Proofs.Except
import DbInventory.Proofs.Text.Decimals
import Mathlib.Data.List.TakeDrop

namespace DbInventory

variable {o : CliOption} {v s : String} {given added all : GivenOptions} {args : List String}
  {env : Environment}

/-! ## Single arguments -/

/-- An option with its value behind an equals sign. -/
def optionText (o : CliOption) (v : String) : String := "--" ++ o.name ++ "=" ++ v

/-- A value begins behind the first equals sign, whatever it holds. -/
theorem splitValue_append {name value : List Char} (h : '=' ∉ name) :
    splitValue (name ++ '=' :: value) = (String.ofList name, some (String.ofList value)) := by
  have hname : ∀ c ∈ name, (decide (c ≠ '=')) = true := by
    intro c hc
    simp only [decide_eq_true_eq]
    rintro rfl
    exact h hc
  have hspan : (name ++ '=' :: value).span (· ≠ '=') = (name, '=' :: value) := by
    rw [List.span_eq_takeWhile_dropWhile, List.takeWhile_append_of_pos hname,
      List.dropWhile_append_of_pos hname]
    simp
  rw [splitValue, hspan]

theorem shapeOf_of_dashes {arg : String} {c : Char} {s : List Char}
    (h : arg.toList = '-' :: '-' :: c :: s) :
    shapeOf arg = .long (splitValue (c :: s)).1 (splitValue (c :: s)).2 := by
  simp only [shapeOf, h]

theorem not_mem_name (o : CliOption) : '=' ∉ o.name.toList := by
  cases o <;> decide

theorem name_ne_help (o : CliOption) : o.name ≠ "help" := by
  cases o <;> decide

/-- **An option is told from its value**, whatever the value is. -/
theorem shapeOf_optionText (o : CliOption) (v : String) :
    shapeOf (optionText o v) = .long o.name (some v) := by
  have htext : (optionText o v).toList = '-' :: '-' :: (o.name.toList ++ '=' :: v.toList) := by
    simp [optionText]
  cases hname : o.name.toList ++ '=' :: v.toList with
  | nil => simp at hname
  | cons c s =>
    rw [hname] at htext
    rw [shapeOf_of_dashes htext, ← hname, splitValue_append (not_mem_name o)]
    simp

/-! ## Values that an option takes -/

/-- The values that an option takes: a decimal number of a signed word for the project, the name
of a format for the output, and any text for all others. -/
def CliOption.Takes (o : CliOption) (v : String) : Prop :=
  (o = .projectId → ∃ n : Int64, Text.IsDecimal v.toList n.toInt) ∧
    (o = .output → v = "json" ∨ v = "table")

/-- Any text is a value of an option that is neither the project nor the output. -/
theorem CliOption.Takes.text (hproject : o ≠ .projectId) (houtput : o ≠ .output) (v : String) :
    o.Takes v :=
  ⟨fun h => absurd h hproject, fun h => absurd h houtput⟩

theorem isSome_outputFormat?_iff : (outputFormat? v).isSome ↔ v = "json" ∨ v = "table" := by
  unfold outputFormat?
  split
  next h => simp [h]
  next hjson =>
    split
    next h => simp [h]
    next htable => simp [hjson, htable]

theorem checkValue_eq_ok_iff : checkValue o v = .ok () ↔ o.Takes v := by
  have hnumber : (Text.int64OfDecimal? v).isSome ↔
      ∃ n : Int64, Text.IsDecimal v.toList n.toInt := by
    simp only [Option.isSome_iff_exists, Text.int64OfDecimal?_eq_some_iff]
  have hif : ∀ (p : Bool) (e : UsageError),
      (if p = true then Except.ok () else .error e) = .ok () ↔ p = true := by simp
  unfold checkValue
  split
  · rw [hif, hnumber]
    simp [CliOption.Takes]
  · rw [hif, isSome_outputFormat?_iff]
    simp [CliOption.Takes]
  next hproject houtput => exact ⟨fun _ => .text hproject houtput v, fun _ => rfl⟩

/-! ## Options that are taken up -/

/-- The options that are given. -/
def GivenOptions.names (given : GivenOptions) : List CliOption := given.map Prod.fst

theorem isSome_lookup_iff : (given.lookup o).isSome ↔ o ∈ given.names := by
  simp only [List.lookup_isSome_iff, GivenOptions.names, List.mem_map, beq_iff_eq]
  exact exists_congr fun p => and_congr_right fun _ => eq_comm

theorem giveOption_of_repeated (h : o ∈ given.names) :
    giveOption given o v = .error .repeatedOption := by
  rw [giveOption, if_pos (isSome_lookup_iff.2 h)]

/-- **An option is taken up** if it is not given yet and takes its value. -/
theorem giveOption_eq_ok_iff :
    giveOption given o v = .ok all ↔
      o ∉ given.names ∧ o.Takes v ∧ all = given ++ [(o, v)] := by
  by_cases hrepeated : o ∈ given.names
  · simp [giveOption_of_repeated hrepeated, hrepeated]
  · rw [giveOption, if_neg (mt isSome_lookup_iff.1 hrepeated), map_eq_ok_iff]
    simp only [hrepeated, not_false_eq_true, true_and, ← checkValue_eq_ok_iff, eq_comm]
    constructor
    · rintro ⟨⟨⟩, hvalue, hall⟩
      exact ⟨hvalue, hall⟩
    · rintro ⟨hvalue, hall⟩
      exact ⟨(), hvalue, hall⟩

/-- **One argument takes its option up, or fails.** -/
theorem readOptions_cons :
    readOptions given none (optionText o v :: args) =
      giveOption given o v >>= fun given => readOptions given none args := by
  have hname : CliOption.ofName? o.name = some o := CliOption.ofName?_name o
  conv_lhs => unfold readOptions
  simp only [shapeOf_optionText, if_neg (name_ne_help o), hname]
  rfl

/-- The arguments of options with their values. -/
def optionTexts (given : GivenOptions) : List String := given.map fun p => optionText p.1 p.2

theorem optionTexts_cons :
    optionTexts ((o, v) :: added) = optionText o v :: optionTexts added := rfl

theorem nodup_names_nil : (GivenOptions.names []).Nodup := List.nodup_nil

theorem names_append : GivenOptions.names (given ++ added) = given.names ++ added.names :=
  List.map_append

theorem nodup_names_concat :
    (GivenOptions.names (given ++ [(o, v)])).Nodup ↔ given.names.Nodup ∧ o ∉ given.names := by
  have hone : GivenOptions.names [(o, v)] = [o] := rfl
  rw [names_append, hone, List.perm_append_comm.nodup_iff, List.singleton_append, List.nodup_cons,
    and_comm]

theorem nodup_names_of_perm (h : added.Perm given) (hgiven : given.names.Nodup) :
    added.names.Nodup :=
  (h.map Prod.fst).nodup_iff.2 hgiven

/-- **A line of options is read** if no option is repeated and each takes its value. -/
theorem readOptions_eq_ok_iff (hgiven : given.names.Nodup) :
    readOptions given none (optionTexts added) = .ok all ↔
      (GivenOptions.names (given ++ added)).Nodup ∧ (∀ p ∈ added, p.1.Takes p.2) ∧
        all = given ++ added := by
  -- what is given already has no option twice, and gets one option more with each argument
  induction added generalizing given with
  | nil => simp [optionTexts, readOptions, settle, hgiven, eq_comm]
  | cons p added ih =>
    obtain ⟨o, v⟩ := p
    rw [optionTexts_cons, readOptions_cons, bind_eq_ok, List.forall_mem_cons, List.append_cons]
    constructor
    · rintro ⟨middle, hmiddle, hrest⟩
      obtain ⟨hnew, htakes, rfl⟩ := giveOption_eq_ok_iff.1 hmiddle
      obtain ⟨hnodup, hadded, hall⟩ := (ih (nodup_names_concat.2 ⟨hgiven, hnew⟩)).1 hrest
      exact ⟨hnodup, ⟨htakes, hadded⟩, hall⟩
    · rintro ⟨hnodup, ⟨htakes, hadded⟩, hall⟩
      have hmiddle : (GivenOptions.names (given ++ [(o, v)])).Nodup :=
        (List.nodup_append.1 (names_append ▸ hnodup)).1
      obtain ⟨-, hnew⟩ := nodup_names_concat.1 hmiddle
      exact ⟨_, giveOption_eq_ok_iff.2 ⟨hnew, htakes, rfl⟩, (ih hmiddle).2 ⟨hnodup, hadded, hall⟩⟩

/-- **A repeated option is refused**, wherever its second value stands. -/
theorem readOptions_of_repeated (htakes : ∀ p ∈ added, p.1.Takes p.2)
    (hgiven : given.names.Nodup) (h : ¬(GivenOptions.names (given ++ added)).Nodup) :
    readOptions given none (optionTexts added) = .error .repeatedOption := by
  induction added generalizing given with
  | nil => exact absurd (by simpa using hgiven) h
  | cons p added ih =>
    obtain ⟨o, v⟩ := p
    obtain ⟨hvalue, hadded⟩ := List.forall_mem_cons.1 htakes
    rw [List.append_cons] at h
    rw [optionTexts_cons, readOptions_cons]
    by_cases hrepeated : o ∈ given.names
    · rw [giveOption_of_repeated hrepeated]
      rfl
    · rw [giveOption_eq_ok_iff.2 ⟨hrepeated, hvalue, rfl⟩]
      exact ih hadded (nodup_names_concat.2 ⟨hgiven, hrepeated⟩) h

/-! ## Where values come from -/

/-- The options of the client, which can also be set by a variable. -/
def clientOptions : List CliOption := [.secretId, .secretKey, .securityToken, .region, .endpoint]

/-- The variable of an option has its name in capitals. -/
def CliOption.variableName (o : CliOption) : String := "TENCENTCLOUD_" ++ o.valueName

/-- The option is not on the line, and it has no variable that is set. -/
structure Unset (env : Environment) (given : GivenOptions) (o : CliOption) : Prop where
  line : ∀ v, (o, v) ∉ given
  environment : o ∈ clientOptions → env o.variableName = none

/-- What an option comes to: its value on the line, or else that of its variable, or else the
default of the region and of the output; any other option is absent. -/
inductive ValueFrom (env : Environment) (given : GivenOptions) : CliOption → Option String → Prop
  | line {o : CliOption} {v : String} (h : (o, v) ∈ given) : ValueFrom env given o (some v)
  | environment {o : CliOption} {v : String} (hline : ∀ v, (o, v) ∉ given)
    (ho : o ∈ clientOptions) (h : env o.variableName = some v) : ValueFrom env given o (some v)
  | region (h : Unset env given .region) : ValueFrom env given .region (some "ap-guangzhou")
  | output (h : Unset env given .output) : ValueFrom env given .output (some "json")
  | absent {o : CliOption} (h : Unset env given o) (hregion : o ≠ .region) (houtput : o ≠ .output) :
    ValueFrom env given o none

theorem envName?_of_mem (h : o ∈ clientOptions) : o.envName? = some o.variableName := by
  simp only [clientOptions, List.mem_cons, List.not_mem_nil, or_false] at h
  rcases h with rfl | rfl | rfl | rfl | rfl <;> decide

theorem envName?_of_not_mem (h : o ∉ clientOptions) : o.envName? = none := by
  cases o <;> simp [clientOptions] at h <;> rfl

theorem lookup_eq_some_iff_mem (hgiven : given.names.Nodup) :
    given.lookup o = some v ↔ (o, v) ∈ given := by
  rw [List.lookup_eq_some_iff]
  constructor
  · rintro ⟨front, back, rfl, -⟩
    simp
  · intro hmem
    obtain ⟨front, back, rfl⟩ := List.append_of_mem hmem
    refine ⟨front, back, rfl, fun p hp => ?_⟩
    -- the option stands in one place only
    rw [names_append, List.nodup_append] at hgiven
    have hne : p.1 ≠ o := hgiven.2.2 p.1 (List.mem_map_of_mem hp) o (by simp [GivenOptions.names])
    exact bne_iff_ne.2 hne.symm

theorem lookup_eq_none_iff_not_mem : given.lookup o = none ↔ ∀ v, (o, v) ∉ given := by
  rw [← Option.not_isSome_iff_eq_none, isSome_lookup_iff, GivenOptions.names, List.mem_map]
  simp

theorem valueFrom_default (h : Unset env given o) : ValueFrom env given o o.default? := by
  unfold CliOption.default?
  split
  · exact .region h
  · exact .output h
  next hregion houtput => exact .absent h hregion houtput

/-- **What an option comes to**: the line counts before the environment, and that before the
default. -/
theorem valueFrom_optionValue (env : Environment) (hgiven : given.names.Nodup) (o : CliOption) :
    ValueFrom env given o (optionValue env given o) := by
  rw [optionValue]
  cases hline : given.lookup o with
  | some v => exact .line ((lookup_eq_some_iff_mem hgiven).1 hline)
  | none =>
    have hnot := lookup_eq_none_iff_not_mem.1 hline
    rw [Option.none_or]
    by_cases ho : o ∈ clientOptions
    · rw [envName?_of_mem ho, Option.bind_some]
      cases hset : env o.variableName with
      | some v => exact .environment hnot ho hset
      | none =>
        rw [Option.none_or]
        exact valueFrom_default ⟨hnot, fun _ => hset⟩
    · rw [envName?_of_not_mem ho, Option.bind_none, Option.none_or]
      exact valueFrom_default ⟨hnot, fun h => absurd h ho⟩

/-- The order of the line does not matter. -/
theorem optionValue_of_perm {given' : GivenOptions} (hgiven : given.names.Nodup)
    (h : given'.Perm given) : optionValue env given' = optionValue env given := by
  have hgiven' : given'.names.Nodup := nodup_names_of_perm h hgiven
  funext o
  have hlookup : given'.lookup o = given.lookup o := by
    apply Option.ext
    intro v
    rw [lookup_eq_some_iff_mem hgiven, lookup_eq_some_iff_mem hgiven', h.mem_iff]
  rw [optionValue, optionValue, hlookup]

/-! ## The arguments of a listing -/

namespace Arguments

variable {a : Arguments} {value : CliOption → Option String}

/-- The arguments are what the options come to: texts as they are, the project as the number of
its decimal text, and the output as the format of its name. -/
structure Holds (a : Arguments) (value : CliOption → Option String) : Prop where
  secretId : a.secretId = value .secretId
  secretKey : a.secretKey = value .secretKey
  securityToken : a.securityToken = value .securityToken
  region : some a.region = value .region
  endpoint : a.endpoint = value .endpoint
  id : a.id = value .id
  projectId : ∀ n, a.projectId = some n ↔
    ∃ v, value .projectId = some v ∧ Text.IsDecimal v.toList n.toInt
  vpcId : a.vpcId = value .vpcId
  subnetId : a.subnetId = value .subnetId
  resultOutputFile : a.resultOutputFile = value .resultOutputFile
  output : value .output = some "json" ∧ a.output = .json ∨
    value .output = some "table" ∧ a.output = .table

theorem holds_ofValues (hregion : (value .region).isSome)
    (hoption : ∀ o v, value o = some v → o.Takes v) (houtput : (value .output).isSome) :
    (ofValues value).Holds value where
  secretId := rfl
  secretKey := rfl
  securityToken := rfl
  region := by
    obtain ⟨v, hv⟩ := Option.isSome_iff_exists.1 hregion
    simp only [ofValues, hv, Option.getD_some]
  endpoint := rfl
  id := rfl
  projectId := by
    intro n
    simp only [ofValues, Option.bind_eq_some_iff, Text.int64OfDecimal?_eq_some_iff]
  vpcId := rfl
  subnetId := rfl
  resultOutputFile := rfl
  output := by
    obtain ⟨v, hv⟩ := Option.isSome_iff_exists.1 houtput
    rcases (hoption .output v hv).2 rfl with rfl | rfl
    · exact .inl ⟨hv, by simp [ofValues, hv, outputFormat?]⟩
    · exact .inr ⟨hv, by simp [ofValues, hv, outputFormat?]⟩

/-- The command line of a listing with options. -/
def listingLine (given : GivenOptions) : List String :=
  "sqlserver" :: "basic-instances" :: optionTexts given

theorem read_listingLine (env : Environment) (given : GivenOptions) :
    read env (listingLine given) =
      (readOptions [] none (optionTexts given)).map
        fun given => ofValues (optionValue env given) := by
  simp [read, listingLine, readCommand, Command.sub?, Command.showsHelp, readArguments]

/-- A line in which each option stands once and takes its value comes to the options' values. -/
theorem read_of_taken (env : Environment) (hgiven : given.names.Nodup)
    (htakes : ∀ p ∈ given, p.1.Takes p.2) :
    read env (listingLine given) = .ok (ofValues (optionValue env given)) := by
  have hread : readOptions [] none (optionTexts given) = .ok given :=
    (readOptions_eq_ok_iff nodup_names_nil).2 ⟨hgiven, htakes, rfl⟩
  rw [read_listingLine, hread]
  rfl

/-- The values of a line that each option takes are taken by the options they come to. -/
theorem takes_of_valueFrom (htakes : ∀ p ∈ given, p.1.Takes p.2)
    (h : ValueFrom env given o (some v)) : o.Takes v := by
  cases h with
  | line h => exact htakes _ h
  | environment _ ho _ =>
    have hproject : o ≠ .projectId := by
      rintro rfl
      exact absurd ho (by decide)
    have houtput : o ≠ .output := by
      rintro rfl
      exact absurd ho (by decide)
    exact .text hproject houtput v
  | region h => exact .text (by decide) (by decide) _
  | output h => exact ⟨nofun, fun _ => .inl rfl⟩

/-- The region and the output always come to something. -/
theorem isSome_of_valueFrom {x : Option String} (h : ValueFrom env given o x)
    (ho : o = .region ∨ o = .output) : x.isSome := by
  cases h with
  | absent _ hregion houtput => exact absurd ho (not_or.2 ⟨hregion, houtput⟩)
  | _ => rfl

/-- **Options are settled.** When each option stands once on the line of a listing and takes its
value, the line is read; the arguments are what the options come to, which is the line's value or
else that of the variable or else the default; and any other order of the line comes to the same
arguments. When an option is repeated, the line is refused, and the repetition is what is wrong
if all values are taken. -/
theorem options_settled (env : Environment) (given : GivenOptions) :
    (given.names.Nodup → (∀ p ∈ given, p.1.Takes p.2) →
      ∃ a, read env (listingLine given) = .ok a ∧
        (∃ value, (∀ o, ValueFrom env given o (value o)) ∧ a.Holds value) ∧
        ∀ given', given'.Perm given → read env (listingLine given') = .ok a) ∧
    (¬given.names.Nodup → (∃ e, read env (listingLine given) = .error e) ∧
      ((∀ p ∈ given, p.1.Takes p.2) → read env (listingLine given) = .error .repeatedOption)) := by
  constructor
  · intro hgiven htakes
    have hfrom := valueFrom_optionValue env hgiven
    refine ⟨ofValues (optionValue env given), read_of_taken env hgiven htakes,
      ⟨optionValue env given, hfrom, ?_⟩, fun given' hperm => ?_⟩
    · refine holds_ofValues ?_ (fun o v hv => ?_) ?_
      · exact isSome_of_valueFrom (hfrom .region) (.inl rfl)
      · exact takes_of_valueFrom htakes (hv ▸ hfrom o)
      · exact isSome_of_valueFrom (hfrom .output) (.inr rfl)
    · have hgiven' : given'.names.Nodup := nodup_names_of_perm hperm hgiven
      rw [read_of_taken env hgiven' fun p hp => htakes p (hperm.mem_iff.1 hp),
        optionValue_of_perm hgiven hperm]
  · intro hrepeated
    constructor
    · cases hread : readOptions [] none (optionTexts given) with
      | ok all =>
        obtain ⟨hnodup, -, -⟩ := (readOptions_eq_ok_iff nodup_names_nil).1 hread
        exact absurd hnodup hrepeated
      | error e =>
        refine ⟨e, ?_⟩
        rw [read_listingLine, hread]
        rfl
    · intro htakes
      rw [read_listingLine, readOptions_of_repeated htakes nodup_names_nil hrepeated]
      rfl

/-- The region is set by its variable, and nothing else is. -/
def shanghaiVariables : Environment := fun name =>
  if name = "TENCENTCLOUD_REGION" then some "ap-shanghai" else none

/-- Values that look like options, hold an equals sign, or are empty. -/
def oddOptions : GivenOptions := [(.output, "table"), (.id, "a=b"), (.vpcId, ""),
  (.subnetId, "--id=x"), (.projectId, "-5")]

theorem oddOptions_taken : ∀ p ∈ oddOptions, p.1.Takes p.2 := by
  have hproject : Text.int64OfDecimal? "-5" = some (-5) := by decide +kernel
  have hnumber : CliOption.Takes .projectId "-5" :=
    ⟨fun _ => ⟨-5, Text.int64OfDecimal?_eq_some_iff.1 hproject⟩, nofun⟩
  intro p hp
  simp only [oddOptions, List.mem_cons, List.not_mem_nil, or_false] at hp
  rcases hp with rfl | rfl | rfl | rfl | rfl
  · exact ⟨nofun, fun _ => .inr rfl⟩
  · exact .text (by decide) (by decide) _
  · exact .text (by decide) (by decide) _
  · exact .text (by decide) (by decide) _
  · exact hnumber

/-- Odd values are read in either order, and an empty second identifier is refused. -/
theorem options_settled_odd :
    (∃ a, read shanghaiVariables (listingLine oddOptions) = .ok a ∧
      read shanghaiVariables (listingLine oddOptions.reverse) = .ok a) ∧
    read shanghaiVariables (listingLine (oddOptions ++ [(.id, "")])) = .error .repeatedOption := by
  constructor
  · obtain ⟨a, ha, -, horder⟩ :=
      (options_settled shanghaiVariables oddOptions).1 (by decide) oddOptions_taken
    exact ⟨a, ha, horder _ (List.reverse_perm _)⟩
  · refine ((options_settled shanghaiVariables _).2 (by decide)).2 fun p hp => ?_
    rw [List.mem_append, List.mem_singleton] at hp
    rcases hp with hodd | rfl
    · exact oddOptions_taken p hodd
    · exact .text (by decide) (by decide) _

end Arguments

end DbInventory
