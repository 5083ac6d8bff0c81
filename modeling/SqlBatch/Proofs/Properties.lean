import SqlBatch.Batch
import Mathlib.Data.List.Induction

/-!
# The properties that a statement is found to define

Two maps are filled from one list of properties that may repeat a name: the texts of the values, and
beside them the texts of the values that are parameters. Each map keeps the last value that reaches
it. Both are read off the list by `Property.last?`, which differs between them only in the values
that count.

## Where the maps go apart

A parameter may be followed by a plain value of the same name. The value takes the place of the
parameter in the first map, while the second keeps it (`properties_metadata_overwritten`). So the
second map is not the part of the first that has parameters for values. What it is, for every list
of properties, is what `Statement.properties_metadata` says.
-/

namespace SqlBatch

/-! ### Entries of a map -/

/-- Setting a name's text leaves the entries of the other names and no other of its own. -/
theorem TextMap.mem_insert {map : TextMap} {name text query found : String} :
    (query, found) ∈ map.insert name text ↔
      if query = name then found = text else (query, found) ∈ map := by
  by_cases h : query = name <;> simp [insert, h]

/-! ### The last value of a name -/

/-- A parameter has a text. -/
theorem Expr.isSome_literalText?_of_isParameter {expr : Expr} (h : expr.isParameter) :
    expr.literalText?.isSome := by
  cases expr <;> first | rfl | cases h

namespace Property

/-- The last value that a list of properties gives to a name, of the values that count. -/
def last? (counts : Expr → Bool) (properties : List Property) (name : String) : Option Expr :=
  ((properties.filter fun p ↦ p.name = name ∧ counts p.value).map (·.value)).getLast?

variable {counts : Expr → Bool} {properties : List Property} {property : Property} {name : String}

/-- Without properties, no name has a value. -/
@[simp] theorem last?_nil : last? counts [] name = none := rfl

/-- One more property is the last of its name, if its value counts. -/
theorem last?_concat : last? counts (properties ++ [property]) name =
    if property.name = name ∧ counts property.value then some property.value
    else last? counts properties name := by
  rw [last?, List.filter_append, List.filter_cons, List.filter_nil]
  by_cases h : property.name = name ∧ counts property.value
  · rw [if_pos (decide_eq_true h), if_pos h, List.map_append]
    exact List.getLast?_concat
  · rw [if_neg (mt of_decide_eq_true h), if_neg h, List.append_nil]
    rfl

/-- The last value that counts does count. -/
theorem counts_of_last? {value : Expr} (h : last? counts properties name = some value) :
    counts value := by
  obtain ⟨p, hp, rfl⟩ := List.mem_map.1 (List.mem_of_getLast? h)
  exact (of_decide_eq_true (List.mem_filter.1 hp).2).2

/-- A value that counts for less is the last one for more, as long as the last one for more counts
for less. -/
theorem last?_eq_of_counts {stricter : Expr → Bool} {value : Expr}
    (h : last? counts properties name = some value) (hvalue : stricter value)
    (hle : ∀ value, stricter value → counts value) :
    last? stricter properties name = some value := by
  induction properties using List.reverseRecOn with
  | nil => cases h
  | append_singleton properties property ih =>
    rw [last?_concat] at h ⊢
    split at h <;> rename_i hlast
    · cases h
      rw [if_pos ⟨hlast.1, hvalue⟩]
    · rw [if_neg fun hp ↦ hlast ⟨hp.1, hle _ hp.2⟩]
      exact ih h

/-- The value that is reported for a name: its last one with a plain text. -/
def reported? : List Property → String → Option Expr :=
  last? (·.literalText?.isSome)

/-- The value of a name that is listed as a parameter: its last one that is a parameter. -/
def placeholder? : List Property → String → Option Expr :=
  last? Expr.isParameter

/-- A parameter that is reported is the one that is listed. -/
theorem placeholder?_eq_of_reported? {value : Expr} (h : reported? properties name = some value)
    (hvalue : value.isParameter) : placeholder? properties name = some value :=
  last?_eq_of_counts h hvalue fun _ ↦ Expr.isSome_literalText?_of_isParameter

/-- Where a parameter is listed, some value is reported. -/
theorem isSome_reported? {value : Expr} (h : placeholder? properties name = some value) :
    (reported? properties name).isSome := by
  induction properties using List.reverseRecOn with
  | nil => cases h
  | append_singleton properties property ih =>
    rw [placeholder?, last?_concat] at h
    rw [reported?, last?_concat]
    split
    · rfl
    · rename_i hlast
      rw [if_neg fun hp ↦ hlast ⟨hp.1, Expr.isSome_literalText?_of_isParameter hp.2⟩] at h
      exact ih h

/-- A parameter was given under the name, but the value that is reported is none. -/
def IsOverwritten (properties : List Property) (name : String) : Prop :=
  (placeholder? properties name).isSome ∧
    ∃ value ∈ reported? properties name, value.isParameter = false

end Property

/-! ### Filling the maps -/

namespace Metadata

variable {metadata : Metadata} {properties : List Property} {property : Property}
  {name text : String}

theorem mem_properties_addProperty : (name, text) ∈ (metadata.addProperty property).properties ↔
    if property.name = name ∧ property.value.literalText?.isSome then
      property.value.literalText? = some text
    else (name, text) ∈ metadata.properties := by
  rw [addProperty]
  cases property.value.literalText? with
  | none => simp
  | some found => simp [TextMap.mem_insert, eq_comm]

theorem mem_parameterized_addProperty :
    (name, text) ∈ (metadata.addProperty property).parameterized ↔
      if property.name = name ∧ property.value.isParameter then
        property.value.literalText? = some text
      else (name, text) ∈ metadata.parameterized := by
  rw [addProperty]
  by_cases hparameter : property.value.isParameter
  · obtain ⟨found, hfound⟩ :=
      Option.isSome_iff_exists.1 (Expr.isSome_literalText?_of_isParameter hparameter)
    simp [hfound, hparameter, TextMap.mem_insert, eq_comm]
  · cases property.value.literalText? with
    | none => simp [hparameter]
    | some found => simp [hparameter]

/-- The text of a name is that of its last value with a text. -/
theorem mem_properties_foldl (hempty : metadata.properties = []) :
    (name, text) ∈ (properties.foldl addProperty metadata).properties ↔
      (Property.reported? properties name).bind Expr.literalText? = some text := by
  induction properties using List.reverseRecOn with
  | nil => simp [hempty, Property.reported?]
  | append_singleton properties property ih =>
    rw [List.foldl_append, List.foldl_cons, List.foldl_nil, mem_properties_addProperty, ih,
      Property.reported?, Property.last?_concat]
    split <;> rfl

/-- The text under which a name is listed as a parameter is that of its last parameter. -/
theorem mem_parameterized_foldl (hempty : metadata.parameterized = []) :
    (name, text) ∈ (properties.foldl addProperty metadata).parameterized ↔
      (Property.placeholder? properties name).bind Expr.literalText? = some text := by
  induction properties using List.reverseRecOn with
  | nil => simp [hempty, Property.placeholder?]
  | append_singleton properties property ih =>
    rw [List.foldl_append, List.foldl_cons, List.foldl_nil, mem_parameterized_addProperty, ih,
      Property.placeholder?, Property.last?_concat]
    split <;> rfl

/-- The entry of a name among the parameterized properties is its entry among all of them, and there
is one just when the value that is reported is a parameter. -/
def Marks (metadata : Metadata) (name : String) (reported? : Option Expr) : Prop :=
  (∀ text, (name, text) ∈ metadata.parameterized → (name, text) ∈ metadata.properties) ∧
    ((∃ text, (name, text) ∈ metadata.parameterized) ↔ ∃ value ∈ reported?, value.isParameter)

end Metadata

/-- **The properties of a statement are the last values with a text, and the parameterized ones are
the last parameters.** So the parameterized properties are those whose reported value is a
parameter, except for the names whose parameter was overwritten by a plain value: such a name stays
listed. -/
theorem Statement.properties_metadata (batch : String) (span : Span) (tree : Command)
    (name : String) :
    let metadata := (Statement.mk batch span (.ok tree)).metadata
    let properties := Metadata.propertiesOf tree
    (∀ text, (name, text) ∈ metadata.properties ↔
      (Property.reported? properties name).bind Expr.literalText? = some text) ∧
    (∀ text, (name, text) ∈ metadata.parameterized ↔
      (Property.placeholder? properties name).bind Expr.literalText? = some text) ∧
    (metadata.Marks name (Property.reported? properties name) ↔
      ¬ Property.IsOverwritten properties name) := by
  intro metadata properties
  have hproperties : ∀ text, (name, text) ∈ metadata.properties ↔
      (Property.reported? properties name).bind Expr.literalText? = some text :=
    fun _ ↦ Metadata.mem_properties_foldl rfl
  have hparameterized : ∀ text, (name, text) ∈ metadata.parameterized ↔
      (Property.placeholder? properties name).bind Expr.literalText? = some text :=
    fun _ ↦ Metadata.mem_parameterized_foldl rfl
  refine ⟨hproperties, hparameterized, ?_⟩
  have hlisted : (∃ text, (name, text) ∈ metadata.parameterized) ↔
      (Property.placeholder? properties name).isSome := by
    simp only [hparameterized]
    cases hlast : Property.placeholder? properties name with
    | none => simp
    | some value =>
      have htext := Expr.isSome_literalText?_of_isParameter (Property.counts_of_last? hlast)
      simpa using Option.isSome_iff_exists.1 htext
  rw [Metadata.Marks, hlisted, Property.IsOverwritten]
  constructor
  · rintro ⟨-, hmarked⟩ ⟨hlast, plain, hplain, hnone⟩
    obtain ⟨value, hvalue, hparameter⟩ := hmarked.1 hlast
    cases Option.mem_unique hvalue hplain
    rw [hnone] at hparameter
    cases hparameter
  · intro hkept
    -- Without a plain value behind the parameters, the reported value is the last of them.
    have hreported : (Property.placeholder? properties name).isSome →
        ∃ value ∈ Property.reported? properties name, value.isParameter := by
      intro hlast
      obtain ⟨parameter, hparameter⟩ := Option.isSome_iff_exists.1 hlast
      obtain ⟨value, hvalue⟩ := Option.isSome_iff_exists.1 (Property.isSome_reported? hparameter)
      cases hplain : value.isParameter with
      | false => exact absurd ⟨hlast, value, hvalue, hplain⟩ hkept
      | true => exact ⟨value, hvalue, hplain⟩
    refine ⟨fun text htext ↦ ?_, hreported, fun ⟨value, hvalue, hparameter⟩ ↦ ?_⟩
    · obtain ⟨value, hvalue, hparameter⟩ := hreported (hlisted.1 ⟨text, htext⟩)
      rw [hproperties, hvalue]
      rwa [hparameterized, Property.placeholder?_eq_of_reported? hvalue hparameter] at htext
    · rw [Property.placeholder?_eq_of_reported? hvalue hparameter]
      rfl

/-- A parameter that a number overwrites stays listed, with a text that is not the reported one. -/
theorem properties_metadata_overwritten :
    (parseBatch "CREATE TABLE t (a INT) WITH (p = ?, p = 5)" false).toOption.map
        (·.map fun s ↦ (s.isOk, s.metadata.properties, s.metadata.parameterized)) =
      some [(true, [("p", "5")], [("p", "?")])] := by
  decide +kernel

end SqlBatch
