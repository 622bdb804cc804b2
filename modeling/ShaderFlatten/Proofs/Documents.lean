import ShaderFlatten.Proofs.Layers

/-!
# Options documents

A document is accepted or refused by what it keeps under two names.  Under each of them may stand nothing, null,
or a mapping whose values are all of the right kind; the bindings are the entries of these mappings, each of them
and no other.  A document that is refused says so with the first entry that is at fault.

    Bindings.ofValue (.map document) = .ok bindings  →  bindings = the entries under the two names

What counts as false is taken for an empty mapping, so that zero, a false truth value, an empty text and an empty
list pass although they are no mappings.
-/

namespace ShaderFlatten

/-! ## Tables from entries -/

namespace Table

variable {α : Type}

instance (t : Table α) : Decidable t.Distinct := inferInstanceAs (Decidable t.names.Nodup)

theorem insert_of_not_mem {t : Table α} {name : String} (h : name ∉ t.names) (a : α) :
    t.insert name a = t ++ [(name, a)] := by
  induction t with
  | nil => rfl
  | cons entry t ih =>
    obtain ⟨n, b⟩ := entry
    rw [names, List.map_cons, List.mem_cons, not_or] at h
    rw [insert, if_neg (Ne.symm h.1), ih h.2]
    rfl

theorem merge_eq_append {t u : Table α} (h : Distinct (t ++ u)) : t.merge u = t ++ u := by
  induction u generalizing t with
  | nil => exact (List.append_nil t).symm
  | cons entry u ih =>
    obtain ⟨n, a⟩ := entry
    have hsplit : t ++ (n, a) :: u = (t ++ [(n, a)]) ++ u := by simp
    have hnew : n ∉ t.names := by
      have hnodup : (t.names ++ n :: names u).Nodup := by
        simpa [Distinct, names] using h
      exact fun hmem => (List.nodup_append.mp hnodup).2.2 n hmem n List.mem_cons_self rfl
    have hmerge : t.merge ((n, a) :: u) = (t.insert n a).merge u := rfl
    rw [hmerge, insert_of_not_mem hnew, ih (hsplit ▸ h), hsplit]

/-- Entries with different names are a table as they stand. -/
theorem Distinct.merge_nil {entries : Table α} (h : entries.Distinct) : Table.merge [] entries = entries :=
  Table.merge_eq_append h

/-- A table binds what some entries say: each name once, and to what its last entry says.  Entries with
different names are bound as they stand. -/
structure Binds (t entries : Table α) : Prop where
  distinct : t.Distinct
  get? : ∀ name, t.get? name = entries.last? name
  eq : entries.Distinct → t = entries

theorem binds_merge_nil (entries : Table α) : (merge [] entries).Binds entries where
  distinct := distinct_nil.merge entries
  get? := fun name => by
    rw [← (distinct_nil.merge entries).last?, last?_merge_nil]
  eq := Distinct.merge_nil

end Table

/-! ## The parts of a document -/

namespace Value

/-- What stands under a name is a part as it should be: nothing, null, or a mapping whose values are all
allowed. -/
def IsPart (allowed : Value → Bool) : Option Value → Prop
  | none | some null => True
  | some (map entries) => ∀ entry ∈ entries, allowed entry.2 = true
  | some _ => False

/-- What stands under a name is neither null nor a mapping, but counts as false. -/
def IsIdle : Option Value → Prop
  | none | some null | some (map _) => False
  | some v => v.isTrue = false

/-- What stands under a name counts as true, but is no mapping. -/
def IsStray (found : Option Value) : Prop := ∃ v, found = some v ∧ v.isTrue = true ∧ ∀ entries, v ≠ map entries

/-- The entries of the mapping under a name, and none if there is no mapping. -/
def entriesAt (name : String) (document : Table Value) : Table Value :=
  match document.get? name with
  | some (map entries) => entries
  | _ => []

section
variable {name : String} {document entries : Table Value}

/-- **A part is read if it is one or counts as false.** -/
theorem part?_eq_some {allowed : Value → Bool} :
    (part? name document = some entries ∧ ∀ entry ∈ entries, allowed entry.2 = true) ↔
      entries = entriesAt name document ∧
        (IsPart allowed (document.get? name) ∨ IsIdle (document.get? name)) := by
  have hempty : (some [] = some entries ∧ ∀ entry ∈ entries, allowed entry.2 = true) ↔ entries = [] := by
    constructor
    · exact fun h => (Option.some.inj h.1).symm
    · rintro rfl
      exact ⟨rfl, by simp⟩
  unfold part? entriesAt
  cases hget : document.get? name with
  | none => simpa only [IsPart, true_or, and_true] using hempty
  | some v =>
    cases v with
    | null => simpa [IsPart, isTrue] using hempty
    | map kept =>
      simp only [Option.some.injEq, IsPart, IsIdle, or_false]
      constructor
      · rintro ⟨rfl, hallowed⟩
        exact ⟨rfl, hallowed⟩
      · rintro ⟨rfl, hallowed⟩
        exact ⟨rfl, hallowed⟩
    | _ =>
      simp only [IsPart, IsIdle, false_or]
      split
      · next htrue => simp [htrue]
      · next hfalse => simpa only [hfalse, and_true] using hempty

theorem part?_eq_none : part? name document = none ↔ IsStray (document.get? name) := by
  unfold part? IsStray
  cases document.get? name with
  | none => simp
  | some v => cases v <;> simp

theorem part?_of_not_isStray (h : ¬ IsStray (document.get? name)) :
    part? name document = some (entriesAt name document) := by
  rw [← part?_eq_none] at h
  unfold part? entriesAt at *
  cases hget : document.get? name with
  | none => rfl
  | some v => cases v <;> simp_all

end

/-- The first entry of a mapping that is not allowed. -/
def FirstRefused (allowed : Value → Bool) (entries : Table Value) (name : String) (v : Value) : Prop :=
  ∃ before behind, entries = before ++ (name, v) :: behind ∧
    (∀ entry ∈ before, allowed entry.2 = true) ∧ allowed v = false

theorem shown_ne_tooDeep (v : Value) : v.shown ≠ .error .tooDeep := by
  unfold shown
  cases v.display <;> simp [Except.mapError]

end Value

/-! ## Refusals -/

/-- A refusal blames an entry: it shows the value under its name, or says that an integer in the value has too
many digits to be shown. -/
inductive OptionsError.Blames (refuse : String → String → OptionsError) (name : String) (v : Value) :
    OptionsError → Prop
  | shown {text : String} (h : v.shown = .ok text) : Blames refuse name v (refuse name text)
  | unshown {e : OptionsError} (h : v.shown = .error e) : Blames refuse name v e

/-- **Checking a mapping refuses its first entry that is not allowed.** -/
theorem EntryReader.check_ofTable_eq_error {allowed : Value → Bool} {refuse : String → String → OptionsError}
    {entries : Table Value} {e : OptionsError} :
    ofTable.check allowed refuse entries = .error e ↔
      ∃ name v, Value.FirstRefused allowed entries name v ∧ OptionsError.Blames refuse name v e := by
  induction entries with
  | nil => simp [check, Value.FirstRefused]
  | cons entry rest ih =>
    obtain ⟨n, a⟩ := entry
    have hvalue : ofTable.value? a = some a := rfl
    by_cases ha : allowed a = true
    · simp only [check, hvalue, Option.any_some, ha, if_true, ih]
      constructor
      · rintro ⟨name, v, ⟨before, behind, rfl, hbefore, hv⟩, hblames⟩
        have hbefore' : ∀ entry ∈ (n, a) :: before, allowed entry.2 = true :=
          List.forall_mem_cons.mpr ⟨ha, hbefore⟩
        exact ⟨name, v, ⟨(n, a) :: before, behind, rfl, hbefore', hv⟩, hblames⟩
      · rintro ⟨name, v, ⟨before, behind, hsplit, hbefore, hv⟩, hblames⟩
        cases before with
        | nil =>
          cases hsplit
          rw [ha] at hv
          cases hv
        | cons first before =>
          cases hsplit
          exact ⟨name, v, ⟨before, behind, rfl, (List.forall_mem_cons.mp hbefore).2, hv⟩, hblames⟩
    · have hcheck : ofTable.check allowed refuse ((n, a) :: rest) =
          (do throw (refuse n (← a.shown))) := by
        simp only [check, hvalue, Option.any_some, ha, if_false, Bool.false_eq_true]
        rfl
      rw [hcheck]
      constructor
      · intro h
        refine ⟨n, a, ⟨[], rest, rfl, by simp, by simpa using ha⟩, ?_⟩
        cases hshown : a.shown with
        | ok text =>
          rw [hshown] at h
          cases h
          exact .shown hshown
        | error e' =>
          rw [hshown] at h
          cases h
          exact .unshown hshown
      · rintro ⟨name, v, ⟨before, behind, hsplit, hbefore, hv⟩, hblames⟩
        cases before with
        | nil =>
          cases hsplit
          cases hblames with
          | shown h => rw [h]; rfl
          | unshown h => rw [h]; rfl
        | cons first before =>
          cases hsplit
          exact absurd (hbefore _ List.mem_cons_self) ha

namespace Bindings

/-- Why a document is refused: one of its parts is no mapping, or else an entry is not allowed, where the
conditions are looked at before the constants. -/
inductive Refuses (document : Table Value) : OptionsError → Prop
  | notMappings (h : Value.IsStray (document.get? "conditions") ∨ Value.IsStray (document.get? "constants")) :
      Refuses document .notMappings
  | condition {name : String} {v : Value} {e : OptionsError}
      (hparts : ¬ Value.IsStray (document.get? "conditions") ∧ ¬ Value.IsStray (document.get? "constants"))
      (hfirst : Value.FirstRefused Value.isCondition (Value.entriesAt "conditions" document) name v)
      (hblames : OptionsError.Blames .badCondition name v e) : Refuses document e
  | constant {name : String} {v : Value} {e : OptionsError}
      (hparts : ¬ Value.IsStray (document.get? "conditions") ∧ ¬ Value.IsStray (document.get? "constants"))
      (hallowed : ∀ entry ∈ Value.entriesAt "conditions" document, entry.2.isCondition = true)
      (hfirst : Value.FirstRefused Value.isConstant (Value.entriesAt "constants" document) name v)
      (hblames : OptionsError.Blames .badConstant name v e) : Refuses document e

section
variable {document : Table Value} {e : OptionsError}

theorem ofValue_map_of_stray
    (h : Value.IsStray (document.get? "conditions") ∨ Value.IsStray (document.get? "constants")) :
    ofValue (.map document) = .error .notMappings := by
  rw [ofValue]
  rcases h with h | h
  · rw [Value.part?_eq_none.mpr h]
    rfl
  · rw [Value.part?_eq_none.mpr h]
    cases Value.part? "conditions" document <;> rfl

theorem ofValue_map_of_parts
    (h : ¬ Value.IsStray (document.get? "conditions") ∧ ¬ Value.IsStray (document.get? "constants")) :
    ofValue (.map document) = (do
      EntryReader.ofTable.check Value.isCondition .badCondition (Value.entriesAt "conditions" document)
      EntryReader.ofTable.check Value.isConstant .badConstant (Value.entriesAt "constants" document)
      return ⟨Table.merge [] (Value.entriesAt "conditions" document),
        Table.merge [] (Value.entriesAt "constants" document)⟩) := by
  rw [ofValue, Value.part?_of_not_isStray h.1, Value.part?_of_not_isStray h.2]
  simp only [ofEntries, EntryReader.toTable_ofTable]
  rfl

/-- **Why a mapping is refused.** -/
theorem ofValue_map_eq_error : ofValue (.map document) = .error e ↔ Refuses document e := by
  by_cases hstray : Value.IsStray (document.get? "conditions") ∨ Value.IsStray (document.get? "constants")
  · rw [ofValue_map_of_stray hstray]
    constructor
    · intro h
      cases h
      exact .notMappings hstray
    · rintro (- | ⟨hparts, -⟩ | ⟨hparts, -⟩)
      · rfl
      · exact absurd hstray (not_or.mpr hparts)
      · exact absurd hstray (not_or.mpr hparts)
  · have hparts := not_or.mp hstray
    rw [ofValue_map_of_parts hparts]
    constructor
    · intro h
      cases hconditions : EntryReader.ofTable.check Value.isCondition .badCondition
          (Value.entriesAt "conditions" document) with
      | error e' =>
        rw [hconditions] at h
        cases h
        obtain ⟨name, v, hfirst, hblames⟩ := EntryReader.check_ofTable_eq_error.mp hconditions
        exact .condition hparts hfirst hblames
      | ok u =>
        rw [hconditions] at h
        cases hconstants : EntryReader.ofTable.check Value.isConstant .badConstant
            (Value.entriesAt "constants" document) with
        | error e' =>
          rw [hconstants] at h
          cases h
          obtain ⟨name, v, hfirst, hblames⟩ := EntryReader.check_ofTable_eq_error.mp hconstants
          exact .constant hparts (EntryReader.check_ofTable.mp hconditions) hfirst hblames
        | ok u' =>
          rw [hconstants] at h
          cases h
    · rintro (h | ⟨-, hfirst, hblames⟩ | ⟨-, hallowed, hfirst, hblames⟩)
      · exact absurd h hstray
      · rw [EntryReader.check_ofTable_eq_error.mpr ⟨_, _, hfirst, hblames⟩]
        rfl
      · have hconditions : EntryReader.ofTable.check Value.isCondition .badCondition
            (Value.entriesAt "conditions" document) = .ok () := EntryReader.check_ofTable.mpr hallowed
        rw [hconditions, EntryReader.check_ofTable_eq_error.mpr ⟨_, _, hfirst, hblames⟩]
        rfl

end

theorem Refuses.ne_tooDeep {document : Table Value} {e : OptionsError} (h : Refuses document e) :
    e ≠ .tooDeep := by
  have hblames {refuse : String → String → OptionsError} {name : String} {v : Value}
      (hrefuse : ∀ name text, refuse name text ≠ .tooDeep) (h : OptionsError.Blames refuse name v e) :
      e ≠ .tooDeep := by
    cases h with
    | shown hshown => exact hrefuse _ _
    | unshown hshown =>
      rintro rfl
      exact v.shown_ne_tooDeep hshown
  cases h with
  | notMappings h => simp
  | condition hparts hfirst h => exact hblames (by simp) h
  | constant hparts hallowed hfirst h => exact hblames (by simp) h

/-- The parts of a document are what they should be, or count as false. -/
def Passes (document : Table Value) : Prop :=
  (Value.IsPart Value.isCondition (document.get? "conditions") ∨ Value.IsIdle (document.get? "conditions")) ∧
    (Value.IsPart Value.isConstant (document.get? "constants") ∨ Value.IsIdle (document.get? "constants"))

theorem ofValue_map_eq_ok_iff {document : Table Value} {bindings : Bindings} :
    ofValue (.map document) = .ok bindings ↔ Passes document ∧
      bindings = ⟨Table.merge [] (Value.entriesAt "conditions" document),
        Table.merge [] (Value.entriesAt "constants" document)⟩ := by
  rw [ofValue_map_eq_ok]
  constructor
  · rintro ⟨conditions, constants, hconditions, hconstants, hallowed, hallowed', rfl⟩
    obtain ⟨rfl, hpart⟩ := Value.part?_eq_some.mp ⟨hconditions, hallowed⟩
    obtain ⟨rfl, hpart'⟩ := Value.part?_eq_some.mp ⟨hconstants, hallowed'⟩
    exact ⟨⟨hpart, hpart'⟩, rfl⟩
  · rintro ⟨⟨hpart, hpart'⟩, rfl⟩
    obtain ⟨hconditions, hallowed⟩ := Value.part?_eq_some.mpr ⟨rfl, hpart⟩
    obtain ⟨hconstants, hallowed'⟩ := Value.part?_eq_some.mpr ⟨rfl, hpart'⟩
    exact ⟨_, _, hconditions, hconstants, hallowed, hallowed', rfl⟩

end Bindings

/-- **What an options document binds.**  A document that is no mapping binds nothing.  A mapping is accepted
exactly if what stands in it under each of the two names is missing, null or a mapping of allowed values, or else
counts as false.  It then binds the entries of these two mappings, each name to what its last entry says and no
other name, and the mappings as they stand if no name occurs in them twice.  Otherwise it is refused, because a
part counts as true and is no mapping, or else by the first entry that is not allowed. -/
theorem options_bound_exactly (v : Value) :
    ((∀ document, v ≠ .map document) → Bindings.ofValue v = .ok .empty) ∧
    ∀ document : Table Value, v = .map document →
      ((∃ bindings, Bindings.ofValue v = .ok bindings) ↔
        (Value.IsPart Value.isCondition (document.get? "conditions") ∨
          Value.IsIdle (document.get? "conditions")) ∧
        (Value.IsPart Value.isConstant (document.get? "constants") ∨
          Value.IsIdle (document.get? "constants"))) ∧
      (∀ bindings, Bindings.ofValue v = .ok bindings →
        bindings.conditions.Binds (Value.entriesAt "conditions" document) ∧
        bindings.constants.Binds (Value.entriesAt "constants" document)) ∧
      ((¬ ∃ bindings, Bindings.ofValue v = .ok bindings) →
        ∃ e, Bindings.ofValue v = .error e ∧ e ≠ .tooDeep ∧ Bindings.Refuses document e) := by
  refine ⟨fun hv => ?_, ?_⟩
  · cases v with
    | map document => exact absurd rfl (hv document)
    | _ => rfl
  · rintro document rfl
    refine ⟨?_, fun bindings h => ?_, fun h => ?_⟩
    · simp only [Bindings.ofValue_map_eq_ok_iff, exists_and_left, exists_eq, and_true, Bindings.Passes]
    · obtain ⟨-, rfl⟩ := Bindings.ofValue_map_eq_ok_iff.mp h
      exact ⟨Table.binds_merge_nil _, Table.binds_merge_nil _⟩
    · cases hresult : Bindings.ofValue (.map document) with
      | ok bindings => exact absurd ⟨bindings, hresult⟩ h
      | error e =>
        have hrefuses := Bindings.ofValue_map_eq_error.mp hresult
        exact ⟨e, rfl, hrefuses.ne_tooDeep, hrefuses⟩

/-- A document with one condition and two constants. -/
def optionsDocument : Table Value :=
  [("conditions", .map [("x", .bool true)]), ("constants", .map [("n", .int 8), ("s", .text "a")])]

theorem options_bound_exactly_document :
    Bindings.ofValue (.map optionsDocument) =
      .ok ⟨[("x", .bool true)], [("n", .int 8), ("s", .text "a")]⟩ := by
  have hconditions : Value.IsPart Value.isCondition (optionsDocument.get? "conditions") := by
    simp [optionsDocument, Table.get?, Value.IsPart, Value.isCondition]
  have hconstants : Value.IsPart Value.isConstant (optionsDocument.get? "constants") := by
    simp [optionsDocument, Table.get?, Value.IsPart, Value.isConstant]
  obtain ⟨haccepted, hbinds, -⟩ := (options_bound_exactly (.map optionsDocument)).2 optionsDocument rfl
  obtain ⟨⟨conditions, constants⟩, hbindings⟩ := haccepted.mpr ⟨.inl hconditions, .inl hconstants⟩
  have hboth := hbinds _ hbindings
  have hconditions : conditions = [("x", .bool true)] := hboth.1.eq (by decide)
  have hconstants : constants = [("n", .int 8), ("s", .text "a")] := hboth.2.eq (by decide)
  rw [hbindings, hconditions, hconstants]

/-- A false truth value passes as a mapping of conditions. -/
theorem idle_part_passes :
    Bindings.ofValue (.map [("conditions", .bool false)]) = .ok .empty ∧
    ¬ Value.IsPart Value.isCondition (Table.get? [("conditions", .bool false)] "conditions") :=
  ⟨rfl, by simp [Table.get?, Value.IsPart]⟩

end ShaderFlatten
