import Mathlib.Data.List.Sort
import RadarProfile.Proofs.Conversion

set_option autoImplicit false

/-! # The parameters of a command, rule by rule

The tokens of a command are taken in order, and for each the schema is searched. The other
way round gives the same: the rules of the keyword are taken in the schema's order, and each
reads the token at its position (`parameters_eq_outcome`). A position of a keyword has one
rule at most, and the rules of a keyword stand by position. So what comes of a command is
known by its rules (`parameters_by_rules`), and tokens without a rule have no part in it
(`parameters_congr`). -/

namespace RadarProfile

/-! ## The schema as a table -/

namespace Schema

/-- **The rules of a keyword stand in the order of their positions.** -/
theorem pairwise_index_lt :
    rules.Pairwise fun rule other => rule.keyword = other.keyword → rule.index < other.index := by
  decide +kernel

/-- A position of a keyword has one rule at most. -/
theorem eq_of_same_place : ∀ rule ∈ rules, ∀ other ∈ rules,
    rule.keyword = other.keyword → rule.index = other.index → rule = other := by
  decide +kernel

theorem one_le_index : ∀ rule ∈ rules, 1 ≤ rule.index := by decide +kernel

/-- **Looking up a position** finds the rule that the table has for it. -/
theorem rule?_eq_some_iff {keyword : Text} {index : Nat} {rule : Rule} :
    rule? keyword index = some rule ↔
      rule ∈ rules ∧ rule.keyword = keyword ∧ rule.index = index := by
  have hplace : ∀ found, rule? keyword index = some found →
      found ∈ rules ∧ found.keyword = keyword ∧ found.index = index := by
    intro found h
    have hfound := List.find?_some h
    rw [Bool.and_eq_true, beq_iff_eq, beq_iff_eq] at hfound
    exact ⟨List.mem_of_find?_eq_some h, hfound⟩
  constructor
  · exact hplace rule
  · rintro ⟨hmem, hkeyword, hindex⟩
    cases hfound : rule? keyword index with
    | none =>
        have hnone := List.find?_eq_none.mp hfound rule hmem
        rw [hkeyword, hindex, beq_self_eq_true, beq_self_eq_true] at hnone
        exact absurd rfl hnone
    | some other =>
        obtain ⟨hother, hkeyword', hindex'⟩ := hplace other hfound
        rw [eq_of_same_place other hother rule hmem (hkeyword'.trans hkeyword.symm)
          (hindex'.trans hindex.symm)]

end Schema

namespace Command

/-! ## Fields -/

/-- A token that a rule reads. -/
structure Field where
  rule : Rule
  token : Text
deriving DecidableEq

namespace Field

def parameter? (field : Field) : Option Parameter :=
  (field.rule.transform.convert? field.token).map fun value => ⟨field.rule.parameter, value⟩

def error (field : Field) : FieldError :=
  ⟨field.rule.keyword, field.rule.index, field.token, field.rule.transform.expected⟩

/-- What comes of fields: the fault of the first one that is not converted, or else the
parameters of all of them. -/
def outcome (fields : List Field) : Except FieldError (List Parameter) :=
  match fields.find? (·.parameter?.isNone) with
  | some field => .error field.error
  | none => .ok (fields.filterMap Field.parameter?)

theorem parameter?_ne_none_iff {field : Field} : field.parameter? ≠ none ↔
    ∃ value, field.rule.transform.convert? field.token = some value := by
  rw [parameter?, Option.ne_none_iff_exists']
  constructor
  · rintro ⟨parameter, h⟩
    obtain ⟨value, hvalue, -⟩ := Option.map_eq_some_iff.mp h
    exact ⟨value, hvalue⟩
  · rintro ⟨value, hvalue⟩
    exact ⟨_, by rw [hvalue]; rfl⟩

theorem outcome_cons_of_none {field : Field} (h : field.parameter? = none)
    (rest : List Field) : outcome (field :: rest) = .error field.error := by
  rw [outcome, List.find?_cons_of_pos (by rw [h]; rfl)]

theorem outcome_cons_of_some {field : Field} {parameter : Parameter}
    (h : field.parameter? = some parameter) (rest : List Field) :
    outcome (field :: rest) = (outcome rest).map (parameter :: ·) := by
  rw [outcome, outcome, List.find?_cons_of_neg (by rw [h]; exact Bool.false_ne_true),
    List.filterMap_cons_some h]
  cases rest.find? (·.parameter?.isNone) with
  | none => rfl
  | some failing => rfl

/-- **Fields come to parameters** if each one is converted, and then to one for each. -/
theorem outcome_eq_ok_iff {fields : List Field} {parameters : List Parameter} :
    outcome fields = .ok parameters ↔ fields.map Field.parameter? = parameters.map some := by
  induction fields generalizing parameters with
  | nil =>
      cases parameters with
      | nil => exact iff_of_true rfl rfl
      | cons parameter rest => exact iff_of_false (by rintro ⟨⟩) (by rintro ⟨⟩)
  | cons field fields ih =>
      cases hfield : field.parameter? with
      | none =>
          rw [outcome_cons_of_none hfield, List.map_cons, hfield]
          refine iff_of_false (by rintro ⟨⟩) ?_
          cases parameters with
          | nil => rintro ⟨⟩
          | cons parameter rest => rintro ⟨⟩
      | some parameter =>
          rw [outcome_cons_of_some hfield, List.map_cons, hfield]
          cases parameters with
          | nil =>
              refine iff_of_false ?_ (by rintro ⟨⟩)
              cases outcome fields with
              | error fault => rintro ⟨⟩
              | ok others => rintro ⟨⟩
          | cons parameter' rest =>
              rw [List.map_cons, List.cons.injEq, ← ih, Option.some.injEq]
              cases outcome fields with
              | error fault => exact iff_of_false (by rintro ⟨⟩) (by rintro ⟨-, ⟨⟩⟩)
              | ok others =>
                  rw [Except.map, Except.ok.injEq, Except.ok.injEq, List.cons.injEq]

theorem exists_outcome_eq_ok_iff {fields : List Field} :
    (∃ parameters, outcome fields = .ok parameters) ↔
      ∀ field ∈ fields, field.parameter? ≠ none := by
  constructor
  · rintro ⟨parameters, h⟩ field hmem hnone
    have hmap : field.parameter? ∈ parameters.map some :=
      outcome_eq_ok_iff.mp h ▸ List.mem_map_of_mem hmem
    obtain ⟨parameter, -, hsome⟩ := List.mem_map.mp hmap
    rw [hnone] at hsome
    cases hsome
  · intro hall
    have hfind : fields.find? (·.parameter?.isNone) = none := by
      rw [List.find?_eq_none]
      intro field hmem hnone
      exact hall field hmem (Option.isNone_iff_eq_none.mp hnone)
    exact ⟨_, by rw [outcome, hfind]⟩

/-- **Fields come to a fault** if one of them is not converted; it is that of the first. -/
theorem outcome_eq_error_iff {fields : List Field} {fault : FieldError} :
    outcome fields = .error fault ↔ ∃ before field after,
      fields = before ++ field :: after ∧ (∀ other ∈ before, other.parameter? ≠ none) ∧
        field.parameter? = none ∧ fault = field.error := by
  unfold outcome
  constructor
  · intro h
    cases hfind : fields.find? (·.parameter?.isNone) with
    | none => rw [hfind] at h; cases h
    | some field =>
        rw [hfind] at h
        cases h
        obtain ⟨hnone, before, after, rfl, hbefore⟩ := List.find?_eq_some_iff_append.mp hfind
        refine ⟨before, field, after, rfl, ?_, Option.isNone_iff_eq_none.mp hnone, rfl⟩
        intro other hother hnone
        have := hbefore other hother
        rw [hnone] at this
        cases this
  · rintro ⟨before, field, after, rfl, hbefore, hnone, rfl⟩
    have hfind : (before ++ field :: after).find? (·.parameter?.isNone) = some field := by
      rw [List.find?_eq_some_iff_append]
      refine ⟨Option.isNone_iff_eq_none.mpr hnone, before, after, rfl, ?_⟩
      intro other hother
      rw [Option.not_isNone]
      exact Option.isSome_iff_ne_none.mpr (hbefore other hother)
    rw [hfind]

end Field

/-! ## Rules and tokens -/

/-- The fields of a command: the rules of its keyword, in the schema's order, each with the
token at its position. A rule beyond the last token has none. -/
def fields (c : Command) : List Field :=
  Schema.rules.filterMap fun rule =>
    if rule.keyword = c.keyword then c.tokens[rule.index]?.map (Field.mk rule) else none

def fieldsFrom (keyword : Text) (index : Nat) (tokens : List Text) : List Field :=
  (tokens.zipIdx index).filterMap fun place =>
    (Schema.rule? keyword place.2).map (Field.mk · place.1)

theorem mem_fields_iff {c : Command} {field : Field} :
    field ∈ c.fields ↔ field.rule ∈ Schema.rules ∧ field.rule.keyword = c.keyword ∧
      c.tokens[field.rule.index]? = some field.token := by
  rw [fields, List.mem_filterMap]
  constructor
  · rintro ⟨rule, hmem, h⟩
    by_cases hkeyword : rule.keyword = c.keyword
    · rw [if_pos hkeyword] at h
      obtain ⟨token, htoken, rfl⟩ := Option.map_eq_some_iff.mp h
      exact ⟨hmem, hkeyword, htoken⟩
    · rw [if_neg hkeyword] at h
      cases h
  · rintro ⟨hmem, hkeyword, htoken⟩
    refine ⟨field.rule, hmem, ?_⟩
    rw [if_pos hkeyword, htoken]
    rfl

theorem mem_fieldsFrom_iff {keyword : Text} {index : Nat} {tokens : List Text}
    {field : Field} :
    field ∈ fieldsFrom keyword index tokens ↔ field.rule ∈ Schema.rules ∧
      field.rule.keyword = keyword ∧ index ≤ field.rule.index ∧
        tokens[field.rule.index - index]? = some field.token := by
  rw [fieldsFrom, List.mem_filterMap]
  constructor
  · rintro ⟨⟨token, place⟩, hplace, h⟩
    obtain ⟨rule, hrule, rfl⟩ := Option.map_eq_some_iff.mp h
    obtain ⟨hmem, hkeyword, rfl⟩ := Schema.rule?_eq_some_iff.mp hrule
    exact ⟨hmem, hkeyword, List.mk_mem_zipIdx_iff_le_and_getElem?_sub.mp hplace⟩
  · rintro ⟨hmem, hkeyword, hplace⟩
    refine ⟨(field.token, field.rule.index),
      List.mk_mem_zipIdx_iff_le_and_getElem?_sub.mpr hplace, ?_⟩
    rw [Schema.rule?_eq_some_iff.mpr ⟨hmem, hkeyword, rfl⟩]
    rfl

/-- The rules of a command are those of its keyword at the positions of its tokens. -/
theorem map_rule_fields (c : Command) :
    c.fields.map Field.rule = Schema.rules.filter fun rule =>
      rule.keyword = c.keyword ∧ rule.index < c.tokens.length := by
  rw [fields, List.map_filterMap, ← List.filterMap_eq_filter]
  refine List.filterMap_congr fun rule _ => ?_
  by_cases hkeyword : rule.keyword = c.keyword
  · by_cases hindex : rule.index < c.tokens.length
    · simp [Option.guard, hkeyword, hindex]
    · simp [Option.guard, hkeyword, hindex]
  · simp [Option.guard, hkeyword]

theorem pairwise_fields (c : Command) :
    c.fields.Pairwise fun field other => field.rule.index < other.rule.index := by
  rw [fields, List.pairwise_filterMap]
  refine Schema.pairwise_index_lt.imp ?_
  intro rule rule' hlt field hfield field' hfield'
  split_ifs at hfield hfield' with hkeyword hkeyword'
  obtain ⟨token, -, rfl⟩ := Option.map_eq_some_iff.mp hfield
  obtain ⟨token', -, rfl⟩ := Option.map_eq_some_iff.mp hfield'
  exact hlt (hkeyword.trans hkeyword'.symm)

theorem pairwise_fieldsFrom (keyword : Text) (index : Nat) (tokens : List Text) :
    (fieldsFrom keyword index tokens).Pairwise
      fun field other => field.rule.index < other.rule.index := by
  have hplaces : (tokens.zipIdx index).Pairwise fun place other => place.2 < other.2 := by
    rw [← List.pairwise_map (f := Prod.snd), List.zipIdx_map_snd]
    exact List.pairwise_lt_range'
  rw [fieldsFrom, List.pairwise_filterMap]
  refine hplaces.imp ?_
  intro place place' hlt field hfield field' hfield'
  obtain ⟨rule, hrule, rfl⟩ := Option.map_eq_some_iff.mp hfield
  obtain ⟨rule', hrule', rfl⟩ := Option.map_eq_some_iff.mp hfield'
  rw [(Schema.rule?_eq_some_iff.mp hrule).2.2, (Schema.rule?_eq_some_iff.mp hrule').2.2]
  exact hlt

/-- The order of the tokens and the order of the schema are the same. -/
theorem fieldsFrom_eq_fields (c : Command) : fieldsFrom c.keyword 1 c.arguments = c.fields := by
  have : Std.Irrefl fun field other : Field => field.rule.index < other.rule.index :=
    ⟨fun field => Nat.lt_irrefl _⟩
  have : Std.Antisymm fun field other : Field => field.rule.index < other.rule.index :=
    ⟨fun field other hlt hgt => absurd hlt (Nat.lt_asymm hgt)⟩
  refine (pairwise_fieldsFrom c.keyword 1 c.arguments).eq_of_mem_iff c.pairwise_fields ?_
  intro field
  rw [mem_fieldsFrom_iff, mem_fields_iff]
  refine and_congr_right fun hmem => and_congr_right fun _ => ?_
  -- the keyword is at position zero, which no rule is for
  obtain ⟨place, hplace⟩ : ∃ place, field.rule.index = place + 1 :=
    Nat.exists_eq_add_of_le' (Schema.one_le_index _ hmem)
  rw [hplace, tokens, List.getElem?_cons_succ, Nat.add_sub_cancel]
  exact and_iff_right (Nat.le_add_left 1 place)

theorem parametersFrom_eq_outcome (keyword : Text) (index : Nat) (tokens : List Text) :
    parametersFrom keyword index tokens = Field.outcome (fieldsFrom keyword index tokens) := by
  induction tokens generalizing index with
  | nil => rfl
  | cons token rest ih =>
      rw [parametersFrom, fieldsFrom, List.zipIdx_cons]
      cases hrule : Schema.rule? keyword index with
      | none =>
          rw [List.filterMap_cons_none (by rw [hrule]; rfl)]
          exact ih (index + 1)
      | some rule =>
          obtain ⟨-, rfl, rfl⟩ := Schema.rule?_eq_some_iff.mp hrule
          rw [List.filterMap_cons_some (b := Field.mk rule token) (by rw [hrule]; rfl)]
          dsimp only
          cases hvalue : rule.transform.convert? token with
          | none =>
              rw [Field.outcome_cons_of_none (by rw [Field.parameter?, hvalue]; rfl)]
              rfl
          | some value =>
              have hfield : (Field.mk rule token).parameter? = some ⟨rule.parameter, value⟩ := by
                rw [Field.parameter?, hvalue]
                rfl
              rw [Field.outcome_cons_of_some hfield, ih]
              show _ = (Field.outcome (fieldsFrom rule.keyword (rule.index + 1) rest)).map _
              cases Field.outcome (fieldsFrom rule.keyword (rule.index + 1) rest) with
              | error fault => rfl
              | ok others => rfl

/-- **The parameters of a command are those of its fields.** -/
theorem parameters_eq_outcome (c : Command) : c.parameters = Field.outcome c.fields := by
  rw [parameters, parametersFrom_eq_outcome, fieldsFrom_eq_fields]

/-- **The fault of a command** is that of its first field that is not converted. -/
theorem parameters_eq_error_iff {c : Command} {fault : FieldError} :
    c.parameters = .error fault ↔ ∃ field ∈ c.fields, field.parameter? = none ∧
      (∀ other ∈ c.fields, other.rule.index < field.rule.index → other.parameter? ≠ none) ∧
        fault = ⟨c.keyword, field.rule.index, field.token, field.rule.transform.expected⟩ := by
  have hkeyword : ∀ field ∈ c.fields, field.error =
      ⟨c.keyword, field.rule.index, field.token, field.rule.transform.expected⟩ := by
    intro field hmem
    rw [← (mem_fields_iff.mp hmem).2.1]
    rfl
  rw [parameters_eq_outcome, Field.outcome_eq_error_iff]
  constructor
  · -- to come first and to have the smallest position are the same, as fields stand by position
    rintro ⟨before, field, after, hfields, hbefore, hnone, rfl⟩
    have hmem : field ∈ c.fields := by simp [hfields]
    refine ⟨field, hmem, hnone, ?_, hkeyword field hmem⟩
    intro other hother hlt
    -- what comes after the field has a greater position
    have hsorted := c.pairwise_fields
    rw [hfields, List.pairwise_append, List.pairwise_cons] at hsorted
    rw [hfields, List.mem_append, List.mem_cons] at hother
    rcases hother with hother | rfl | hother
    · exact hbefore other hother
    · exact absurd hlt (Nat.lt_irrefl _)
    · exact absurd hlt (Nat.lt_asymm (hsorted.2.1.1 other hother))
  · rintro ⟨field, hmem, hnone, hsmallest, rfl⟩
    obtain ⟨before, after, hfields⟩ := List.append_of_mem hmem
    refine ⟨before, field, after, hfields, ?_, hnone, (hkeyword field hmem).symm⟩
    intro other hother
    have hsorted := c.pairwise_fields
    rw [hfields, List.pairwise_append] at hsorted
    refine hsmallest other ?_ (hsorted.2.2 other hother field List.mem_cons_self)
    rw [hfields]
    exact List.mem_append_left _ hother

/-! ## What has no part in the parameters -/

/-- **Only tokens with a rule matter**: commands of the same keyword that agree at the
positions of its rules have the same parameters, or the same fault. -/
theorem parameters_congr {c c' : Command} (hkeyword : c.keyword = c'.keyword)
    (h : ∀ rule ∈ Schema.rules, rule.keyword = c.keyword →
      c.tokens[rule.index]? = c'.tokens[rule.index]?) : c.parameters = c'.parameters := by
  have hfields : c.fields = c'.fields := by
    refine List.filterMap_congr fun rule hmem => ?_
    by_cases hrule : rule.keyword = c.keyword
    · rw [if_pos hrule, if_pos (hrule.trans hkeyword), h rule hmem hrule]
    · rw [if_neg hrule, if_neg (hkeyword ▸ hrule)]
  rw [parameters_eq_outcome, parameters_eq_outcome, hfields]

/-- A token without a rule can be any other. -/
theorem parameters_set {c : Command} {place : Nat}
    (h : Schema.rule? c.keyword (place + 1) = none) (token : Text) :
    (⟨c.keyword, c.arguments.set place token⟩ : Command).parameters = c.parameters := by
  refine parameters_congr rfl fun rule hmem hkeyword => ?_
  obtain ⟨place', hplace'⟩ : ∃ place', rule.index = place' + 1 :=
    Nat.exists_eq_add_of_le' (Schema.one_le_index _ hmem)
  have hne : place ≠ place' := by
    rintro rfl
    rw [Schema.rule?_eq_some_iff.mpr ⟨hmem, hkeyword, hplace'⟩] at h
    cases h
  rw [hplace', tokens, tokens, List.getElem?_cons_succ, List.getElem?_cons_succ,
    List.getElem?_set_ne hne]

/-- Tokens beyond the last position that has a rule can be any others, or none. -/
theorem parameters_of_take_eq {c : Command} {last : Nat} {others : List Text}
    (hlast : ∀ rule ∈ Schema.rules, rule.keyword = c.keyword → rule.index ≤ last)
    (h : others.take last = c.arguments.take last) :
    (⟨c.keyword, others⟩ : Command).parameters = c.parameters := by
  refine parameters_congr rfl fun rule hmem hkeyword => ?_
  obtain ⟨place, hplace⟩ : ∃ place, rule.index = place + 1 :=
    Nat.exists_eq_add_of_le' (Schema.one_le_index _ hmem)
  have hlt : place < last := by
    have := hlast rule hmem hkeyword
    omega
  rw [hplace, tokens, tokens, List.getElem?_cons_succ, List.getElem?_cons_succ,
    ← List.getElem?_take_of_lt hlt, h, List.getElem?_take_of_lt hlt]

/-- A command that ends early has the parameters of the tokens that are there. -/
theorem parameters_take {c : Command} {parameters : List Parameter}
    (h : c.parameters = .ok parameters) (place : Nat) :
    ∃ front, (⟨c.keyword, c.arguments.take place⟩ : Command).parameters = .ok front ∧
      front <+: parameters := by
  rw [Command.parameters, ← List.take_append_drop place c.arguments,
    parametersFrom_append] at h
  show ∃ front, parametersFrom c.keyword 1 (c.arguments.take place) = .ok front ∧ _
  cases hfront : parametersFrom c.keyword 1 (c.arguments.take place) with
  | error fault => rw [hfront] at h; cases h
  | ok front =>
      rw [hfront] at h
      refine ⟨front, rfl, ?_⟩
      cases hback : parametersFrom c.keyword (1 + (c.arguments.take place).length)
          (c.arguments.drop place) with
      | error fault => rw [hback] at h; cases h
      | ok back =>
          rw [hback] at h
          cases h
          exact List.prefix_append front back

/-- **The parameters of a command are what its rules make of its tokens.** Its rules are those
of its keyword at the positions of its tokens, and they stand by position. If each converts
its token, there is one parameter for each, in this order, named by the rule and with the
converted value. Otherwise the fault is that of the smallest position that is not converted.
So a token that is missing at the end takes its parameter away and no other; a token without
a rule may be any other, and tokens beyond the last rule may be any others or none. -/
theorem parameters_by_rules (c : Command) :
    c.fields.map Field.rule = Schema.rules.filter (fun rule =>
      rule.keyword = c.keyword ∧ rule.index < c.tokens.length) ∧
    c.fields.Pairwise (fun field other => field.rule.index < other.rule.index) ∧
    (∀ field ∈ c.fields, c.tokens[field.rule.index]? = some field.token) ∧
    ((∃ parameters, c.parameters = .ok parameters) ↔
      ∀ field ∈ c.fields, ∃ value, field.rule.transform.convert? field.token = some value) ∧
    (∀ parameters, c.parameters = .ok parameters ↔
      c.fields.map Field.parameter? = parameters.map some) ∧
    (∀ fault, c.parameters = .error fault ↔
      ∃ field ∈ c.fields, field.rule.transform.convert? field.token = none ∧
        (∀ other ∈ c.fields, other.rule.index < field.rule.index →
          ∃ value, other.rule.transform.convert? other.token = some value) ∧
        fault = ⟨c.keyword, field.rule.index, field.token, field.rule.transform.expected⟩) ∧
    (∀ parameters, c.parameters = .ok parameters → ∀ place, ∃ front,
      (⟨c.keyword, c.arguments.take place⟩ : Command).parameters = .ok front ∧
        front <+: parameters) ∧
    (∀ place token, Schema.rule? c.keyword (place + 1) = none →
      (⟨c.keyword, c.arguments.set place token⟩ : Command).parameters = c.parameters) ∧
    (∀ last others, (∀ rule ∈ Schema.rules, rule.keyword = c.keyword → rule.index ≤ last) →
      others.take last = c.arguments.take last →
        (⟨c.keyword, others⟩ : Command).parameters = c.parameters) := by
  refine ⟨c.map_rule_fields, c.pairwise_fields, fun field hmem => (mem_fields_iff.mp hmem).2.2,
    ?_, ?_, ?_, fun parameters h place => parameters_take h place,
    fun place token h => parameters_set h token,
    fun last others hlast h => parameters_of_take_eq hlast h⟩
  · rw [parameters_eq_outcome, Field.exists_outcome_eq_ok_iff]
    exact forall₂_congr fun field _ => Field.parameter?_ne_none_iff
  · intro parameters
    rw [parameters_eq_outcome, Field.outcome_eq_ok_iff]
  · intro fault
    rw [parameters_eq_error_iff]
    refine exists_congr fun field => and_congr_right fun _ => and_congr ?_ ?_
    · rw [Field.parameter?, Option.map_eq_none_iff]
    · refine and_congr_left' (forall₃_congr fun other _ _ => ?_)
      exact Field.parameter?_ne_none_iff

/-- Masks, numbers and fractions. The rules of `channelCfg` end at position two: without the
second token there is one parameter less, and the third token may be anything or missing.
Those of `profileCfg` leave positions out, and an integer that is a fraction is its fault. -/
theorem parameters_by_rules_of_channels_and_profile :
    let c : Command := ⟨"channelCfg".toList, ["15".toList, "5".toList, "0".toList]⟩
    let parameters : List Parameter :=
      [⟨"numTxAzimAnt".toList, .int 2⟩, ⟨"numRxAnt".toList, .int 2⟩]
    let profile (samples : String) : Command := ⟨"profileCfg".toList,
      ["0", "77", "7.5", "x", "-0.25", "x", "x", "1e1", "x", samples].map String.toList⟩
    c.parameters = .ok parameters ∧
      (∃ front, (⟨c.keyword, ["15".toList]⟩ : Command).parameters = .ok front ∧
        front <+: parameters) ∧
      (⟨c.keyword, ["15".toList, "5".toList, "x".toList]⟩ : Command).parameters =
        c.parameters ∧
      (⟨c.keyword, ["15".toList, "5".toList]⟩ : Command).parameters = c.parameters ∧
      (profile "-256").parameters = .ok
        [⟨"startFreq".toList, .float ⟨false, 1029, 914793674309632⟩⟩,
         ⟨"idleTime".toList, .float ⟨false, 1025, 3940649673949184⟩⟩,
         ⟨"rampEndTime".toList, .float ⟨true, 1021, 0⟩⟩,
         ⟨"freqSlopeConst".toList, .float ⟨false, 1026, 1125899906842624⟩⟩,
         ⟨"numAdcSamples".toList, .int (-256)⟩] ∧
      (profile "2.5").parameters =
        .error ⟨"profileCfg".toList, 10, "2.5".toList, .int⟩ := by
  intro c parameters profile
  obtain ⟨-, -, -, -, hok, -, htake, hset, hbeyond⟩ := c.parameters_by_rules
  have hparameters : c.parameters = .ok parameters := (hok parameters).mpr (by decide +kernel)
  obtain ⟨-, -, -, -, hprofile, -⟩ := (profile "-256").parameters_by_rules
  obtain ⟨-, -, -, -, -, hfault, -⟩ := (profile "2.5").parameters_by_rules
  refine ⟨hparameters, htake parameters hparameters 1, hset 2 "x".toList (by decide +kernel),
    hbeyond 2 ["15".toList, "5".toList] (by decide +kernel) rfl,
    (hprofile _).mpr (by decide +kernel), (hfault _).mpr ?_⟩
  have hbefore : ∀ other ∈ (profile "2.5").fields, other.rule.index < 10 →
      (other.rule.transform.convert? other.token).isSome = true := by
    decide +kernel
  exact ⟨⟨.named "profileCfg" 10 "numAdcSamples" .int, "2.5".toList⟩, by decide +kernel,
    by decide +kernel, fun other hmem hlt => Option.isSome_iff_exists.mp (hbefore other hmem hlt),
    rfl⟩

-- position four of `profileCfg` has no rule, and of two malformed tokens the first one counts
example : (Command.mk "profileCfg".toList ["0".toList, "77".toList, "x".toList, "y".toList,
    "z".toList]).parameters = .error ⟨"profileCfg".toList, 3, "x".toList, .float⟩ := by
  decide +kernel

end Command

end RadarProfile
