/-
What comes of overriding.

Each of the four variables is unset, holds a text, or holds bytes that are no text, and of the
texts some are of no use for a format or a verbosity.  A variable that is set and of no use is
an offence (`Offends`), and a variable is usable exactly if it is none.  So one of two things
comes of overriding: without an offence the set fields are replaced and the others left, and
otherwise the first offence in the order of the variables is the failure, which does not ask
for the variables behind it.

Overriding again changes nothing, because the fields that are set get the same values as before.
-/
import Salutation.Proofs.Undecodable

namespace Salutation.Config

variable {environment : Environment} {name : String}

/-! ### Values of variables -/

theorem text?_of_unset (h : environment name = none) : environment.text? name = none := by
  simp [Environment.text?, h]

theorem text?_of_text {value : String} (h : environment name = some (bytesOf value)) :
    environment.text? name = some value := by
  simp [Environment.text?, h, bytesOf]

/-- A variable is unset, or a text, or no text. -/
theorem value_cases (environment : Environment) (name : String) :
    environment name = none ∨ (∃ value, environment name = some (bytesOf value)) ∨
      environment.IsUndecodable name := by
  cases hvalue : environment name with
  | none => exact Or.inl rfl
  | some bytes =>
      refine Or.inr ?_
      by_cases htext : ∃ text, Utf8.encode text = bytes
      · obtain ⟨text, rfl⟩ := htext
        exact Or.inl ⟨String.ofList text, by rw [bytesOf, String.toList_ofList]⟩
      · exact Or.inr ⟨bytes, hvalue, not_exists.mp htext⟩

/-- A variable is usable if it is not set to bytes that are no text, nor to a text that may not
stand in it. -/
theorem isUsable_iff {allows : String → Bool} :
    isUsable environment name allows = true ↔ ¬environment.IsUndecodable name ∧
      ∀ value, environment name = some (bytesOf value) → allows value = true := by
  constructor
  · intro h
    refine ⟨?_, ?_⟩
    · intro hundecodable
      rw [not_isUsable_of_undecodable hundecodable] at h
      cases h
    · intro value hvalue
      simpa [isUsable, hvalue, text?_of_text hvalue] using h
  · rintro ⟨htext, hallows⟩
    rcases value_cases environment name with hnone | ⟨value, hvalue⟩ | hundecodable
    · simp [isUsable, hnone]
    · simp [isUsable, text?_of_text hvalue, hallows value hvalue]
    · exact absurd hundecodable htext

theorem areUsable_iff : AreUsable environment ↔
    ∀ name ∈ overrideVariables, isUsable environment name (mayHold name) = true := by
  constructor
  · intro h name hname
    rcases mem_overrideVariables.mp hname with rfl | rfl | rfl | rfl
    · exact h.name
    · exact h.message
    · exact h.format
    · exact h.verbosity
  · intro h
    exact ⟨h "GREETER_NAME" (by decide), h "GREETER_MESSAGE" (by decide),
      h "GREETER_FORMAT" (by decide), h "GREETER_VERBOSITY" (by decide)⟩

/-! ### Offences

What may go wrong is listed beforehand, variable by variable, without the order in which they are
read.  The order is then all that is left to say of a failure: it is the offence of the first
variable that has one.
-/

/-- A variable holds what it may not, and the failure that says so: with the text as it is, or
with the bytes as far as they are text. -/
inductive Offends (environment : Environment) : String → Failure → Prop where
  | undecodable {name : String} {bytes : Bytes} (hname : name ∈ overrideVariables)
      (hvalue : environment name = some bytes) (htext : ∀ text, Utf8.encode text ≠ bytes) :
      Offends environment name
        (.invalidVariable name (String.ofList (Utf8.decodeLossy bytes)) .validText)
  | noFormat {value : String} (hvalue : environment "GREETER_FORMAT" = some (bytesOf value))
      (hparse : Format.parse? value = none) :
      Offends environment "GREETER_FORMAT"
        (.invalidVariable "GREETER_FORMAT" value (.oneOf Format.names))
  | noVerbosity {value : String}
      (hvalue : environment "GREETER_VERBOSITY" = some (bytesOf value))
      (hparse : Verbosity.parse? value = none) :
      Offends environment "GREETER_VERBOSITY"
        (.invalidVariable "GREETER_VERBOSITY" value (.oneOf Verbosity.names))

/-- The variables that are not usable are those with an offence. -/
theorem isUsable_iff_not_offends (hname : name ∈ overrideVariables) :
    isUsable environment name (mayHold name) = true ↔
      ∀ failure, ¬Offends environment name failure := by
  constructor
  · intro h failure hoffends
    obtain ⟨htext, hallows⟩ := isUsable_iff.mp h
    cases hoffends with
    | undecodable _ hvalue hbytes => exact htext ⟨_, hvalue, hbytes⟩
    | noFormat hvalue hparse =>
        have hallowed := hallows _ hvalue
        simp [mayHold, hparse] at hallowed
    | noVerbosity hvalue hparse =>
        have hallowed := hallows _ hvalue
        simp [mayHold, hparse] at hallowed
  · intro h
    refine isUsable_iff.mpr ⟨?_, ?_⟩
    · rintro ⟨bytes, hvalue, htext⟩
      exact h _ (.undecodable hname hvalue htext)
    · intro value hvalue
      rcases mem_overrideVariables.mp hname with rfl | rfl | rfl | rfl
      · rfl
      · rfl
      · cases hparse : Format.parse? value with
        | none => exact absurd (.noFormat hvalue hparse) (h _)
        | some format => simp [mayHold, hparse]
      · cases hparse : Verbosity.parse? value with
        | none => exact absurd (.noVerbosity hvalue hparse) (h _)
        | some verbosity => simp [mayHold, hparse]

theorem readChoice_of_text {α : Type} {parse? : String → Option α} {allowed : List String}
    {value : String} (hvalue : environment name = some (bytesOf value))
    (hparse : parse? value = none) :
    readChoice environment name parse? allowed =
      .error (.invalidVariable name value (.oneOf allowed)) := by
  have hread : readVariable environment name = .ok (some value) := by
    simp [readVariable, hvalue, bytesOf]
  simp [readChoice, hread, hparse]

/-- An offence is the failure if the variables in front of it are usable. -/
theorem override_of_offends {failure : Failure} (h : Offends environment name failure)
    (hbefore : ∀ earlier ∈ overrideVariables.takeWhile (· ≠ name),
      isUsable environment earlier (mayHold earlier) = true) (config : Config) :
    override environment config = .error failure := by
  cases h with
  | undecodable hname hvalue htext =>
      exact override_of_undecodable hname hbefore hvalue htext config
  | noFormat hvalue hparse =>
      have hfails : ReadingFails environment "GREETER_FORMAT" _ := readChoice_of_text hvalue hparse
      exact override_of_readingFails (by decide) hbefore hfails config
  | noVerbosity hvalue hparse =>
      have hfails : ReadingFails environment "GREETER_VERBOSITY" _ :=
        readChoice_of_text hvalue hparse
      exact override_of_readingFails (by decide) hbefore hfails config

/-- Where a property fails in a list, there is a first place where it does. -/
theorem exists_first {α : Type} [DecidableEq α] {P : α → Prop} {all : List α}
    (h : ∃ a ∈ all, ¬P a) : ∃ a ∈ all, ¬P a ∧ ∀ earlier ∈ all.takeWhile (· ≠ a), P earlier := by
  induction all with
  | nil => simp at h
  | cons first more ih =>
      by_cases hfirst : P first
      · have hmore : ∃ a ∈ more, ¬P a := by
          obtain ⟨a, hmem, ha⟩ := h
          rcases List.mem_cons.mp hmem with rfl | hmem
          · exact absurd hfirst ha
          · exact ⟨a, hmem, ha⟩
        obtain ⟨a, hmem, ha, hbefore⟩ := ih hmore
        refine ⟨a, List.mem_cons_of_mem first hmem, ha, ?_⟩
        intro earlier hearlier
        rw [List.takeWhile_cons] at hearlier
        split at hearlier
        case isTrue =>
          rcases List.mem_cons.mp hearlier with rfl | hearlier
          · exact hfirst
          · exact hbefore earlier hearlier
        case isFalse => cases hearlier
      · exact ⟨first, List.mem_cons_self, hfirst, by simp⟩

/-- The failures are the first offences. -/
theorem override_eq_error_iff {config : Config} {failure : Failure} :
    override environment config = .error failure ↔
      ∃ name ∈ overrideVariables, Offends environment name failure ∧
        ∀ earlier ∈ overrideVariables.takeWhile (· ≠ name), ∀ other,
          ¬Offends environment earlier other := by
  have hsubset : ∀ {name earlier : String},
      earlier ∈ overrideVariables.takeWhile (· ≠ name) → earlier ∈ overrideVariables :=
    fun hmem => (List.takeWhile_sublist _).mem hmem
  constructor
  · intro h
    have hunusable : ∃ name ∈ overrideVariables,
        ¬isUsable environment name (mayHold name) = true := by
      by_contra hnone
      have husable : AreUsable environment := areUsable_iff.mpr (by simpa using hnone)
      rw [override_of_areUsable husable] at h
      cases h
    obtain ⟨name, hname, hfirst, hbefore⟩ := exists_first hunusable
    rw [isUsable_iff_not_offends hname, not_forall_not] at hfirst
    obtain ⟨found, hfound⟩ := hfirst
    rw [override_of_offends hfound hbefore config, Except.error.injEq] at h
    subst h
    exact ⟨name, hname, hfound, fun earlier hearlier =>
      (isUsable_iff_not_offends (hsubset hearlier)).mp (hbefore earlier hearlier)⟩
  · rintro ⟨name, -, hoffends, hbefore⟩
    refine override_of_offends hoffends ?_ config
    intro earlier hearlier
    exact (isUsable_iff_not_offends (hsubset hearlier)).mpr (hbefore earlier hearlier)

theorem override_ok_iff {config : Config} :
    (∃ result, override environment config = .ok result) ↔ AreUsable environment := by
  constructor
  · rintro ⟨result, hresult⟩
    by_contra hunusable
    obtain ⟨failure, hfailure⟩ := override_of_not_areUsable hunusable config
    rw [hfailure] at hresult
    cases hresult
  · intro husable
    exact ⟨_, override_of_areUsable husable config⟩

/-! ### Replaced fields -/

/-- A field is replaced by what a variable holds, if that is set, and otherwise left. -/
def Replaces {α : Type} (environment : Environment) (name : String)
    (read? : String → Option α) (old new : α) : Prop :=
  (environment name = none → new = old) ∧
    ∀ value, environment name = some (bytesOf value) → read? value = some new

/-- The fields are replaced whose variables are set, a name and a message as they are. -/
structure Overridden (environment : Environment) (config result : Config) : Prop where
  name : Replaces environment "GREETER_NAME" some config.greeting.name result.greeting.name
  message : Replaces environment "GREETER_MESSAGE" some config.greeting.message
    result.greeting.message
  format : Replaces environment "GREETER_FORMAT" Format.parse? config.output.format
    result.output.format
  verbosity : Replaces environment "GREETER_VERBOSITY" Verbosity.parse? config.output.verbosity
    result.output.verbosity

theorem replaces_of_isUsable {α : Type} {read? : String → Option α} (old : α)
    (h : isUsable environment name (fun value => (read? value).isSome) = true) :
    Replaces environment name read? old
      (((environment.text? name).bind read?).getD old) := by
  refine ⟨?_, ?_⟩
  · intro hnone
    rw [text?_of_unset hnone]
    rfl
  · intro value hvalue
    obtain ⟨-, hallows⟩ := isUsable_iff.mp h
    obtain ⟨new, hnew⟩ := Option.isSome_iff_exists.mp (hallows value hvalue)
    simp [text?_of_text hvalue, hnew]

theorem overridden_of_areUsable (h : AreUsable environment) (config : Config) :
    Overridden environment config ((Layer.ofEnvironment environment).over config) := by
  have hname : Replaces environment "GREETER_NAME" some config.greeting.name _ :=
    replaces_of_isUsable _ h.name
  have hmessage : Replaces environment "GREETER_MESSAGE" some config.greeting.message _ :=
    replaces_of_isUsable _ h.message
  rw [Option.bind_fun_some] at hname hmessage
  exact ⟨hname, hmessage, replaces_of_isUsable _ h.format, replaces_of_isUsable _ h.verbosity⟩

/-- A layer over itself sets nothing else. -/
theorem Layer.over_over (layer : Layer) (config : Config) :
    layer.over (layer.over config) = layer.over config := by
  obtain ⟨name, message, format, verbosity⟩ := layer
  cases name <;> cases message <;> cases format <;> cases verbosity <;> rfl

/-- **Overriding goes through exactly if each variable that is set is text, and the format and
the verbosity name one.**  Then the fields are replaced whose variables are set, and overriding
again changes nothing.  Otherwise the failure is the offence of the first variable that has one,
whatever the variables behind it hold. -/
theorem override_outcome (environment : Environment) (config : Config) :
    ((∃ result, override environment config = .ok result) ↔
      (∀ name ∈ overrideVariables, ¬environment.IsUndecodable name) ∧
      (∀ value, environment "GREETER_FORMAT" = some (bytesOf value) →
        ∃ format, Format.parse? value = some format) ∧
      ∀ value, environment "GREETER_VERBOSITY" = some (bytesOf value) →
        ∃ verbosity, Verbosity.parse? value = some verbosity) ∧
    (∀ result, override environment config = .ok result →
      Overridden environment config result ∧ override environment result = .ok result) ∧
    ∀ failure, override environment config = .error failure ↔
      ∃ name ∈ overrideVariables, Offends environment name failure ∧
        ∀ earlier ∈ overrideVariables.takeWhile (· ≠ name), ∀ other,
          ¬Offends environment earlier other := by
  refine ⟨?_, ?_, fun failure => override_eq_error_iff⟩
  · rw [override_ok_iff, areUsable_iff]
    simp only [isUsable_iff, ← Option.isSome_iff_exists]
    constructor
    · intro h
      exact ⟨fun name hname => (h name hname).1, (h "GREETER_FORMAT" (by decide)).2,
        (h "GREETER_VERBOSITY" (by decide)).2⟩
    · rintro ⟨htext, hformat, hverbosity⟩ name hname
      refine ⟨htext name hname, ?_⟩
      rcases mem_overrideVariables.mp hname with rfl | rfl | rfl | rfl
      · exact fun _ _ => rfl
      · exact fun _ _ => rfl
      · exact hformat
      · exact hverbosity
  · intro result hresult
    have husable : AreUsable environment := override_ok_iff.mp ⟨result, hresult⟩
    rw [override_of_areUsable husable, Except.ok.injEq] at hresult
    subst hresult
    refine ⟨overridden_of_areUsable husable config, ?_⟩
    rw [override_of_areUsable husable, Layer.over_over]

/-- An empty name and a format between blanks go through.  Of a misspelt format and a verbosity
that is no text the format is the failure, with its blanks. -/
theorem override_outcome_of_two :
    let usable : Environment := fun name => if name = "GREETER_NAME" then some []
      else if name = "GREETER_FORMAT" then some (bytesOf " JSON\n") else none
    let unusable : Environment := fun name =>
      if name = "GREETER_FORMAT" then some (bytesOf " xml ")
      else if name = "GREETER_VERBOSITY" then some [0xFF] else none
    override usable {} = .ok ⟨⟨"", "Hello"⟩, ⟨.json, .normal⟩⟩ ∧
      Overridden usable {} ⟨⟨"", "Hello"⟩, ⟨.json, .normal⟩⟩ ∧
      override unusable {} =
        .error (.invalidVariable "GREETER_FORMAT" " xml " (.oneOf ["text", "json"])) := by
  intro usable unusable
  have hresult : override usable {} = .ok ⟨⟨"", "Hello"⟩, ⟨.json, .normal⟩⟩ := by decide +kernel
  obtain ⟨-, hreplaces, -⟩ := override_outcome usable {}
  obtain ⟨-, -, hfails⟩ := override_outcome unusable {}
  refine ⟨hresult, (hreplaces _ hresult).1, (hfails _).mpr
    ⟨"GREETER_FORMAT", by decide, .noFormat rfl (by decide +kernel), ?_⟩⟩
  have hunset : ∀ earlier ∈ overrideVariables.takeWhile (· ≠ "GREETER_FORMAT"),
      unusable earlier = none := by decide
  intro earlier hearlier other hoffends
  have hnone := hunset earlier hearlier
  cases hoffends with
  | undecodable _ hvalue => rw [hnone] at hvalue; cases hvalue
  | noFormat hvalue => rw [hnone] at hvalue; cases hvalue
  | noVerbosity hvalue => rw [hnone] at hvalue; cases hvalue

end Salutation.Config
