/-
# DbInventory.Proofs.Schema.Extension -- larger schemas and smaller values

A schema may declare more attributes later, at any depth, and a service may leave members out or
answer null for them. `Attribute.ExtendedBy` and `Schema.ExtendedBy` say the first of two
schemas, `Json.Thinned` says the second of two values. Neither makes a value fail that was
accepted: one member less is never noticed (`Json.Thinning.acceptedAs`), and by induction no
number of them; so values, configurations and computed values all stay accepted
(`ResourceData.acceptance_monotone`).
-/

import DbInventory.Proofs.Schema.Validity
import Mathlib.Logic.Relation

namespace DbInventory

/-! ## Values with less in them -/

namespace Json

/-- One member of an object, at some depth, is left out or made null. -/
inductive Thinning : Json → Json → Prop where
  | leftOut (front back : List (String × Json)) (name : String) (v : Json) :
    Thinning (.object (front ++ (name, v) :: back)) (.object (front ++ back))
  | nulled (front back : List (String × Json)) (name : String) (v : Json) :
    Thinning (.object (front ++ (name, v) :: back)) (.object (front ++ (name, .null) :: back))
  | member {v w : Json} (front back : List (String × Json)) (name : String) (h : Thinning v w) :
    Thinning (.object (front ++ (name, v) :: back)) (.object (front ++ (name, w) :: back))
  | item {v w : Json} (front back : List Json) (h : Thinning v w) :
    Thinning (.array (front ++ v :: back)) (.array (front ++ w :: back))

/-- Any number of members, at any depths, are left out or made null. -/
def Thinned : Json → Json → Prop := Relation.ReflTransGen Thinning

end Json

/-- What stands in a list with one place replaced is new or was there before. -/
theorem mem_replaced {α : Type} {x new : α} {front back : List α} (old : α)
    (h : x ∈ front ++ new :: back) : x = new ∨ x ∈ front ++ old :: back := by
  simp only [List.mem_append, List.mem_cons] at h ⊢
  rcases h with hfront | hnew | hback
  · exact .inr (.inl hfront)
  · exact .inl hnew
  · exact .inr (.inr (.inr hback))

/-! ## Acceptance of an object -/

namespace Attribute

variable {a : Attribute} {v w : Json} {attributes : List (String × Attribute)}
  {items : List Json} {members members' : List (String × Json)}

/-- The value is accepted as an element of a list: an object of declared members, each of them
accepted. -/
def AcceptsElement (attributes : List (String × Attribute)) (v : Json) : Prop :=
  acceptsItems attributes [v] = true

theorem acceptsElement_iff :
    AcceptsElement attributes v ↔ ∃ members, v = .object members ∧
      ∀ m ∈ members, ∃ b, attributes.lookup m.1 = some b ∧ b.accepts m.2 := by
  simp only [AcceptsElement, acceptsItems_iff, acceptsMembers_iff, List.forall_mem_singleton]

/-- A list is accepted if its elements are. -/
theorem accepts_list_iff :
    a.accepts (.array items) ↔ a.type = .list ∧ ∀ attributes, a.element = some attributes →
      ∀ item ∈ items, AcceptsElement attributes item := by
  simp only [accepts_array_iff, acceptsElement_iff]

/-- What a map holds is accepted where a text is. -/
theorem accepts_text (h : a.type = .string) : a.accepts v = isMapValue v := by
  cases v <;> simp [accepts, isMapValue, isText, h]

theorem accepts_map_iff :
    a.accepts (.object members) ↔ a.type = .map ∧
      ∀ m ∈ members, (argument .string "").accepts m.2 := by
  simp [accepts, accepts_text (a := argument .string "") rfl]

/-- The second value is accepted wherever the first one is, as the value of an attribute and as
an element of a list. -/
structure AcceptedAs (v w : Json) : Prop where
  accepts : ∀ a : Attribute, a.accepts v → a.accepts w
  acceptsElement : ∀ attributes, AcceptsElement attributes v → AcceptsElement attributes w

/-- An object is accepted wherever another one is, if each of its names has a value there that
is accepted by no attribute that refuses its own. -/
theorem acceptedAs_object (h : ∀ m ∈ members', ∃ v, (m.1, v) ∈ members ∧
      ∀ a : Attribute, a.accepts v → a.accepts m.2) :
    AcceptedAs (.object members) (.object members') where
  accepts := by
    intro a ha
    obtain ⟨htype, hmembers⟩ := accepts_map_iff.1 ha
    refine accepts_map_iff.2 ⟨htype, fun m hm => ?_⟩
    obtain ⟨v, hv, himp⟩ := h m hm
    exact himp _ (hmembers (m.1, v) hv)
  acceptsElement := by
    intro attributes ha
    obtain ⟨_, hobject, hmembers⟩ := acceptsElement_iff.1 ha
    cases hobject
    refine acceptsElement_iff.2 ⟨members', rfl, fun m hm => ?_⟩
    obtain ⟨v, hv, himp⟩ := h m hm
    obtain ⟨b, hb, haccepts⟩ := hmembers (m.1, v) hv
    exact ⟨b, hb, himp b haccepts⟩

/-- A member may get a value that is accepted wherever its old one is. -/
theorem acceptedAs_member (front back : List (String × Json)) (name : String)
    (h : ∀ a : Attribute, a.accepts v → a.accepts w) :
    AcceptedAs (.object (front ++ (name, v) :: back)) (.object (front ++ (name, w) :: back)) := by
  refine acceptedAs_object fun m hm => ?_
  rcases mem_replaced (name, v) hm with rfl | hold
  · exact ⟨v, by simp, h⟩
  · exact ⟨m.2, hold, fun _ ha => ha⟩

/-- An element of a list may become one that is accepted wherever the old one is. -/
theorem acceptedAs_item (front back : List Json) (h : AcceptedAs v w) :
    AcceptedAs (.array (front ++ v :: back)) (.array (front ++ w :: back)) where
  accepts := by
    intro a ha
    obtain ⟨htype, hitems⟩ := accepts_list_iff.1 ha
    refine accepts_list_iff.2 ⟨htype, fun attributes hattributes item hitem => ?_⟩
    rcases mem_replaced v hitem with rfl | hold
    · exact h.acceptsElement attributes (hitems attributes hattributes v (by simp))
    · exact hitems attributes hattributes item hold
  acceptsElement := by
    -- a list is no element of a list
    intro attributes ha
    obtain ⟨members, hobject, -⟩ := acceptsElement_iff.1 ha
    cases hobject

end Attribute

/-! ## Smaller values -/

namespace Json

open Attribute (AcceptedAs acceptedAs_object acceptedAs_member acceptedAs_item)

variable {v w : Json} {members : List (String × Json)}

/-- **One member less is never noticed**, whatever accepts the value. -/
theorem Thinning.acceptedAs (h : Thinning v w) : AcceptedAs v w := by
  induction h with
  | leftOut front back name v =>
    have hsub := (List.sublist_cons_self (name, v) back).append_left front
    exact acceptedAs_object fun m hm => ⟨m.2, hsub.mem hm, fun _ ha => ha⟩
  | nulled front back name v =>
    exact acceptedAs_member front back name fun a _ => by simp [Attribute.accepts]
  | member front back name _ ih => exact acceptedAs_member front back name ih.accepts
  | item front back _ ih => exact acceptedAs_item front back ih

/-- **Nor is any number of members less.** -/
theorem Thinned.acceptedAs (h : Thinned v w) : AcceptedAs v w := by
  induction h with
  | refl => exact ⟨fun _ ha => ha, fun _ ha => ha⟩
  | tail _ hstep ih =>
    have hlast := hstep.acceptedAs
    exact ⟨fun a ha => hlast.accepts a (ih.accepts a ha),
      fun l ha => hlast.acceptsElement l (ih.acceptsElement l ha)⟩

/-- A member with another value is a member of the same name. -/
theorem names_replaced (front back : List (String × Json)) (name : String) (v w : Json) :
    ∀ m ∈ front ++ (name, w) :: back, ∃ v', (m.1, v') ∈ front ++ (name, v) :: back := by
  intro m hm
  rcases mem_replaced (name, v) hm with rfl | hold
  · exact ⟨v, by simp⟩
  · exact ⟨m.2, hold⟩

/-- An object that loses a member stays an object, and gets no new names. -/
theorem Thinning.names (h : Thinning (.object members) w) :
    ∃ members', w = .object members' ∧ ∀ m ∈ members', ∃ v, (m.1, v) ∈ members := by
  cases h with
  | leftOut front back name v =>
    have hsub := (List.sublist_cons_self (name, v) back).append_left front
    exact ⟨_, rfl, fun m hm => ⟨m.2, hsub.mem hm⟩⟩
  | nulled front back name v => exact ⟨_, rfl, names_replaced front back name v .null⟩
  | member front back name h => exact ⟨_, rfl, names_replaced front back name _ _⟩

theorem Thinned.names (h : Thinned (.object members) w) :
    ∃ members', w = .object members' ∧ ∀ m ∈ members', ∃ v, (m.1, v) ∈ members := by
  induction h with
  | refl => exact ⟨members, rfl, fun m hm => ⟨m.2, hm⟩⟩
  | tail _ hstep ih =>
    obtain ⟨middle, rfl, hmiddle⟩ := ih
    obtain ⟨members', rfl, hnames⟩ := hstep.names
    refine ⟨members', rfl, fun m hm => ?_⟩
    obtain ⟨v, hv⟩ := hnames m hm
    exact hmiddle (m.1, v) hv

end Json

/-! ## Larger schemas -/

namespace Attribute

variable {a b : Attribute} {v : Json}

/-- The second attribute is the first one with any number of attributes more, at any depth: it
has the type of the first; a list without declared members stays one; and of a list with
declared members each is declared there too, as it is or with more attributes in it. Members
are declared for lists only. -/
inductive ExtendedBy : Attribute → Attribute → Prop where
  | scalar {a b : Attribute} (htype : b.type = a.type) (hlist : a.type ≠ .list) : ExtendedBy a b
  | anyList {a b : Attribute} (htype : b.type = a.type) (ha : a.element = none)
    (hb : b.element = none) : ExtendedBy a b
  | list {a b : Attribute} {attributes attributes' : List (String × Attribute)}
    (htype : b.type = a.type) (ha : a.element = some attributes) (hb : b.element = some attributes')
    (hdeclared : ∀ name x, attributes.lookup name = some x → ∃ y, attributes'.lookup name = some y)
    (hinside : ∀ name x y, attributes.lookup name = some x → attributes'.lookup name = some y →
      ExtendedBy x y) : ExtendedBy a b

/-- What is no list is accepted for the type alone. -/
theorem accepts_of_type_eq (htype : b.type = a.type) (hlist : ∀ items, v ≠ .array items)
    (h : a.accepts v) : b.accepts v := by
  rw [accepts_iff_fitsHere hlist] at h ⊢
  refine h.imp_right fun ⟨hof, hmap, _⟩ => ⟨htype ▸ hof, hmap, ?_⟩
  exact fun _ items _ hitems => absurd hitems (hlist items)

theorem accepts_of_lists (htype : b.type = a.type)
    (hlist : ∀ items, a.accepts (.array items) → b.accepts (.array items))
    (h : a.accepts v) : b.accepts v := by
  by_cases harray : ∃ items, v = .array items
  · obtain ⟨items, rfl⟩ := harray
    exact hlist items h
  · exact accepts_of_type_eq htype (fun items hitems => harray ⟨items, hitems⟩) h

/-- **An attribute with more attributes in it accepts what it did.** -/
theorem ExtendedBy.accepts (h : a.ExtendedBy b) (ha : a.accepts v) : b.accepts v := by
  -- the attributes inside the first one, whose values are one list deeper
  induction h generalizing v with
  | scalar htype hlist =>
    exact accepts_of_lists htype (fun items h => absurd (accepts_list_iff.1 h).1 hlist) ha
  | anyList htype _ hb =>
    refine accepts_of_lists htype (fun items h => ?_) ha
    refine accepts_list_iff.2 ⟨htype ▸ (accepts_list_iff.1 h).1, fun l hl => ?_⟩
    cases hb.symm.trans hl
  | list htype hattributes hb hdeclared _ ih =>
    refine accepts_of_lists htype (fun items h => ?_) ha
    obtain ⟨hlist, hitems⟩ := accepts_list_iff.1 h
    refine accepts_list_iff.2 ⟨htype ▸ hlist, fun l hl item hitem => ?_⟩
    obtain rfl := Option.some.inj (hb.symm.trans hl)
    obtain ⟨members, rfl, hmembers⟩ := acceptsElement_iff.1 (hitems _ hattributes item hitem)
    refine acceptsElement_iff.2 ⟨members, rfl, fun m hm => ?_⟩
    obtain ⟨x, hx, haccepts⟩ := hmembers m hm
    obtain ⟨y, hy⟩ := hdeclared m.1 x hx
    exact ⟨y, hy, ih m.1 x y hx hy haccepts⟩

theorem sizeOf_lt_of_lookup {attributes : List (String × Attribute)} {name : String}
    (ha : a.element = some attributes) (hb : attributes.lookup name = some b) :
    sizeOf b < sizeOf a := by
  obtain ⟨front, back, rfl, -⟩ := List.lookup_eq_some_iff.1 hb
  have hlt : sizeOf (name, b) < sizeOf (front ++ (name, b) :: back) :=
    List.sizeOf_lt_of_mem (by simp)
  obtain ⟨_, _, _, _, _⟩ := a
  simp only at ha
  simp only [ha, Attribute.mk.sizeOf_spec, Option.some.sizeOf_spec, Prod.mk.sizeOf_spec] at hlt ⊢
  omega

theorem ExtendedBy.refl (a : Attribute) : a.ExtendedBy a := by
  induction hsize : sizeOf a using Nat.strongRecOn generalizing a with
  | _ n ih =>
    subst hsize
    cases hattributes : a.element with
    | none => exact .anyList rfl hattributes hattributes
    | some attributes =>
      refine .list rfl hattributes hattributes (fun _ x hx => ⟨x, hx⟩) fun name x y hx hy => ?_
      obtain rfl := Option.some.inj (hx.symm.trans hy)
      exact ih (sizeOf x) (sizeOf_lt_of_lookup hattributes hx) x rfl

end Attribute

namespace Schema

open Attribute (AcceptsElement acceptsElement_iff)

variable {schema schema' : Schema} {v : Json}

/-- Each attribute of the first schema is declared in the second one, as it is or with more
attributes in it. -/
def ExtendedBy (schema schema' : Schema) : Prop :=
  ∀ name a, schema.get? name = some a → ∃ b, schema'.get? name = some b ∧ a.ExtendedBy b

/-- What may be configured in the first schema may be configured in the second one. -/
def KeepsArguments (schema schema' : Schema) : Prop :=
  ∀ name a b, schema.get? name = some a → schema'.get? name = some b → a.isOptional → b.isOptional

/-- An object of declared members keeps to a schema with more attributes. -/
theorem ExtendedBy.acceptsElement (h : schema.ExtendedBy schema')
    (hv : AcceptsElement schema.entries v) : AcceptsElement schema'.entries v := by
  obtain ⟨members, rfl, hmembers⟩ := acceptsElement_iff.1 hv
  refine acceptsElement_iff.2 ⟨members, rfl, fun m hm => ?_⟩
  obtain ⟨a, ha, haccepts⟩ := hmembers m hm
  obtain ⟨b, hb, hext⟩ := h m.1 a ha
  exact ⟨b, hb, hext.accepts haccepts⟩

/-- An attribute that is put in is declared for what was declared under its name. -/
theorem extendedBy_insert {name : String} {a : Attribute}
    (h : ∀ b, schema.get? name = some b → b.ExtendedBy a) :
    schema.ExtendedBy (schema.insert name a) := by
  intro other b hb
  by_cases heq : other = name
  · subst heq
    exact ⟨a, Dict.get?_insert_self .., h b hb⟩
  · refine ⟨b, ?_, .refl b⟩
    rw [Dict.get?_insert, if_neg heq, hb]

theorem keepsArguments_insert {name : String} {a : Attribute}
    (h : ∀ b, schema.get? name = some b → b.isOptional → a.isOptional) :
    schema.KeepsArguments (schema.insert name a) := by
  intro other b c hb hc hoptional
  rw [Dict.get?_insert] at hc
  split at hc
  next heq =>
    subst heq
    obtain rfl := Option.some.inj hc
    exact h b hb hoptional
  next =>
    obtain rfl := Option.some.inj (hb.symm.trans hc)
    exact hoptional

/-- A list whose elements may have more members is such a list with more attributes. -/
theorem ExtendedBy.computedList (h : schema.ExtendedBy schema') (text text' : String) :
    (Attribute.computedList text schema).ExtendedBy (.computedList text' schema') := by
  refine .list rfl rfl rfl (fun name x hx => ?_) fun name x y hx hy => ?_
  · obtain ⟨y, hy, -⟩ := h name x hx
    exact ⟨y, hy⟩
  · obtain ⟨y', hy', hext⟩ := h name x hx
    obtain rfl := Option.some.inj (hy.symm.trans hy')
    exact hext

end Schema

/-! ## Both together -/

namespace ResourceData

open Attribute (AcceptsElement acceptsElement_iff)

variable {schema schema' : Schema} {config config' : Dict Json} {d d' e : ResourceData}
  {key : String} {v w : Json}

/-- A configuration that is taken is taken by a schema with more attributes, and with less in
it. -/
theorem exists_fromConfig_of_extendedBy (hext : schema.ExtendedBy schema')
    (hkeeps : schema.KeepsArguments schema') (hconfig : fromConfig schema config = .ok d)
    (hthin : (Json.ofDict config).Thinned (.ofDict config')) :
    ∃ d', fromConfig schema' config' = .ok d' := by
  have harguments := exists_fromConfig_iff.1 ⟨d, hconfig⟩
  have hold : AcceptsElement schema.entries (.ofDict config) := by
    refine acceptsElement_iff.2 ⟨config.entries, rfl, fun m hm => ?_⟩
    obtain ⟨a, ha, hfits, -⟩ := harguments m.1 m.2 (Dict.get?_eq_some_iff.2 hm)
    exact ⟨a, ha, Attribute.accepts_iff_fits.2 hfits⟩
  have hnew := hext.acceptsElement (hthin.acceptedAs.acceptsElement _ hold)
  obtain ⟨_, hobject, haccepted⟩ := acceptsElement_iff.1 hnew
  obtain ⟨_, hobject', hnames⟩ := hthin.names
  cases hobject
  cases hobject'
  refine exists_fromConfig_iff.2 fun key w hw => ?_
  have hmem := Dict.get?_eq_some_iff.1 hw
  obtain ⟨b, hb, haccepts⟩ := haccepted (key, w) hmem
  obtain ⟨v, hv⟩ := hnames (key, w) hmem
  obtain ⟨a, ha, -, hoptional⟩ := harguments key v (Dict.get?_eq_some_iff.2 hv)
  exact ⟨b, hb, Attribute.accepts_iff_fits.1 haccepts, hkeeps key a b ha hb hoptional⟩

/-- A computed value that is taken is taken by data of a schema with more attributes, and with
less in it. -/
theorem exists_set_of_extendedBy (hext : d.schema.ExtendedBy d'.schema)
    (hset : d.set key v = .ok e) (hthin : v.Thinned w) : ∃ e', d'.set key w = .ok e' := by
  obtain ⟨⟨a, ha, hfits⟩, -⟩ := set_eq_ok_iff.1 hset
  obtain ⟨b, hb, hab⟩ := hext key a ha
  have hthinned : a.accepts w := hthin.acceptedAs.accepts a (Attribute.accepts_iff_fits.2 hfits)
  exact ⟨_, set_eq_ok_iff.2 ⟨⟨b, hb, Attribute.accepts_iff_fits.1 (hab.accepts hthinned)⟩, rfl⟩⟩

/-- **Acceptance only grows.** What an attribute or a schema accepts is accepted by each one that
has more attributes, at any depth, and so is everything that is left of it when members are left
out or made null, at any depth. So a configuration stays valid, and a computed value can still be
put in, when the schema gets more attributes and the value loses members; and an attribute under
a new name is such an extension. -/
theorem acceptance_monotone :
    (∀ (a b : Attribute) (v w : Json), a.ExtendedBy b → v.Thinned w → a.accepts v →
      b.accepts w) ∧
    (∀ (schema schema' : Schema) (v w : Json), schema.ExtendedBy schema' → v.Thinned w →
      AcceptsElement schema.entries v → AcceptsElement schema'.entries w) ∧
    (∀ (schema schema' : Schema) (config config' : Dict Json) (d : ResourceData),
      schema.ExtendedBy schema' → schema.KeepsArguments schema' →
      (Json.ofDict config).Thinned (.ofDict config') → fromConfig schema config = .ok d →
      ∃ d', fromConfig schema' config' = .ok d') ∧
    (∀ (d d' e : ResourceData) (key : String) (v w : Json), d.schema.ExtendedBy d'.schema →
      v.Thinned w → d.set key v = .ok e → ∃ e', d'.set key w = .ok e') ∧
    ∀ (schema : Schema) (name : String) (a : Attribute), schema.get? name = none →
      schema.ExtendedBy (schema.insert name a) ∧
        schema.KeepsArguments (schema.insert name a) := by
  refine ⟨fun a b v w hext hthin hv => ?_, fun schema schema' v w hext hthin hv => ?_,
    fun schema schema' config config' d hext hkeeps hthin hconfig => ?_,
    fun d d' e key v w hext hthin hset => ?_, fun schema name a hnew => ?_⟩
  · exact hext.accepts (hthin.acceptedAs.accepts a hv)
  · exact hext.acceptsElement (hthin.acceptedAs.acceptsElement _ hv)
  · exact exists_fromConfig_of_extendedBy hext hkeeps hconfig hthin
  · exact exists_set_of_extendedBy hext hset hthin
  · have hnone : ∀ b, schema.get? name ≠ some b := by simp [hnew]
    exact ⟨Schema.extendedBy_insert fun b hb => absurd hb (hnone b),
      Schema.keepsArguments_insert fun b hb => absurd hb (hnone b)⟩

/-- What a part of a disk is declared to have. -/
def partSchema : Schema := ⟨[("size", .computed .int "")], List.pairwise_singleton _ _⟩

/-- Disks as before, whose parts have a label as well. -/
def labelledDiskSchema : Schema :=
  diskSchema.insert "disks" (.computedList "" ((⟨[("parts", .computedList "" partSchema)],
    List.pairwise_singleton _ _⟩ : Schema).insert "parts"
      (.computedList "" (partSchema.insert "label" (.computed .string "")))))

theorem diskSchema_extendedBy : diskSchema.ExtendedBy labelledDiskSchema := by
  have hpart : partSchema.ExtendedBy (partSchema.insert "label" (.computed .string "")) := by
    have hnew : partSchema.get? "label" = none := rfl
    exact Schema.extendedBy_insert fun b hb => by simp [hnew] at hb
  refine Schema.extendedBy_insert fun b hb => ?_
  obtain rfl := Option.some.inj hb
  refine Schema.ExtendedBy.computedList (Schema.extendedBy_insert fun b hb => ?_) "" ""
  obtain rfl := Option.some.inj hb
  exact hpart.computedList "" ""

theorem diskSchema_keepsArguments : diskSchema.KeepsArguments labelledDiskSchema := by
  refine Schema.keepsArguments_insert fun b hb hoptional => ?_
  obtain rfl := Option.some.inj hb
  cases hoptional

/-- A disk of the given parts. -/
def disksOf (parts : List Json) : Json := .array [.object [("parts", .array parts)]]

/-- A part with a size. -/
def partOfSize (size : Json) : Json := .object [("size", size)]

/-- A configured zone. -/
def zoneConfig (v : Json) : Dict Json := ⟨[("zone", v)], List.pairwise_singleton _ _⟩

/-- When the parts of disks get a label, a zone that becomes null is still taken; and of two parts
one may lose its size and the other one may have null for it. -/
theorem acceptance_monotone_disks :
    (∃ d, fromConfig labelledDiskSchema (zoneConfig .null) = .ok d) ∧
    ∃ e, (⟨labelledDiskSchema, ∅, ∅, none⟩ : ResourceData).set "disks"
      (disksOf [.object [], partOfSize .null]) = .ok e := by
  have hconfig : ∃ d, fromConfig diskSchema (zoneConfig (.string "z")) = .ok d := ⟨_, rfl⟩
  have hzone : (Json.ofDict (zoneConfig (.string "z"))).Thinning (.ofDict (zoneConfig .null)) :=
    .nulled [] [] "zone" (.string "z")
  have hset : ∃ e, (⟨diskSchema, ∅, ∅, none⟩ : ResourceData).set "disks"
      (disksOf [partOfSize (.int64 3), partOfSize (.int64 4)]) = .ok e := ⟨_, rfl⟩
  have hfirst : (disksOf [partOfSize (.int64 3), partOfSize (.int64 4)]).Thinning
      (disksOf [.object [], partOfSize (.int64 4)]) :=
    .item [] [] (.member [] [] "parts" (.item [] [partOfSize (.int64 4)]
      (.leftOut [] [] "size" (.int64 3))))
  have hsecond : (disksOf [.object [], partOfSize (.int64 4)]).Thinning
      (disksOf [.object [], partOfSize .null]) :=
    .item [] [] (.member [] [] "parts" (.item [.object []] []
      (.nulled [] [] "size" (.int64 4))))
  obtain ⟨d, hd⟩ := hconfig
  obtain ⟨e, he⟩ := hset
  exact ⟨acceptance_monotone.2.2.1 _ _ _ _ d diskSchema_extendedBy diskSchema_keepsArguments
      (Relation.ReflTransGen.single hzone) hd,
    acceptance_monotone.2.2.2.1 _ _ e _ _ _ diskSchema_extendedBy
      ((Relation.ReflTransGen.single hfirst).tail hsecond) he⟩

end ResourceData

end DbInventory
