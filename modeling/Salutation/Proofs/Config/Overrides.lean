/-
The layer of the variables.

A variable sets its field if it is set, and must then hold the text of a usable value.
`AreUsable` says that all four do; it is exactly when overriding goes through.  Whether a
variable is usable does not depend on the configuration that it overrides.
-/
import Salutation.Config.Overrides
import Salutation.Proofs.Config.Layers

namespace Salutation.Config

/-- Whether a variable is unset or holds a text that may stand in it. -/
def isUsable (environment : Environment) (name : String) (allows : String → Bool) : Bool :=
  (environment name).isNone || (environment.text? name).any allows

/-- The four variables are usable: a name and a message are any text, the others name one of
their choices. -/
structure AreUsable (environment : Environment) : Prop where
  name : isUsable environment "GREETER_NAME" (fun _ => true) = true
  message : isUsable environment "GREETER_MESSAGE" (fun _ => true) = true
  format : isUsable environment "GREETER_FORMAT" (fun s => (Format.parse? s).isSome) = true
  verbosity :
    isUsable environment "GREETER_VERBOSITY" (fun s => (Verbosity.parse? s).isSome) = true

/-- What the variables set. -/
def Layer.ofEnvironment (environment : Environment) : Layer where
  name := environment.text? "GREETER_NAME"
  message := environment.text? "GREETER_MESSAGE"
  format := (environment.text? "GREETER_FORMAT").bind Format.parse?
  verbosity := (environment.text? "GREETER_VERBOSITY").bind Verbosity.parse?

section

variable {environment : Environment} {name : String}

/-- A usable variable is read as its text. -/
theorem readVariable_of_isUsable (h : isUsable environment name (fun _ => true) = true) :
    readVariable environment name = .ok (environment.text? name) := by
  unfold readVariable
  cases hvalue : environment name with
  | none => simp [Environment.text?, hvalue]
  | some bytes =>
      cases htext : Utf8.decode? bytes with
      | none => simp [isUsable, Environment.text?, hvalue, htext] at h
      | some text => simp [Environment.text?, hvalue, htext]

/-- Only a usable variable is read. -/
theorem isUsable_of_readVariable {value? : Option String}
    (h : readVariable environment name = .ok value?) :
    isUsable environment name (fun _ => true) = true := by
  unfold readVariable at h
  split at h
  case h_1 hvalue => simp [isUsable, hvalue]
  case h_2 bytes hvalue =>
    split at h
    case h_1 text htext => simp [isUsable, Environment.text?, hvalue, htext]
    case h_2 => cases h

variable {α : Type} {parse? : String → Option α} {allowed : List String}

/-- What is usable as a choice is text. -/
theorem isUsable_of_choice
    (h : isUsable environment name (fun s => (parse? s).isSome) = true) :
    isUsable environment name (fun _ => true) = true := by
  unfold isUsable at h ⊢
  cases htext : environment.text? name with
  | none => simpa [htext] using h
  | some text => simp

/-- A usable variable is read as the choice that it names. -/
theorem readChoice_of_isUsable
    (h : isUsable environment name (fun s => (parse? s).isSome) = true) :
    readChoice environment name parse? allowed =
      .ok ((environment.text? name).bind parse?) := by
  unfold readChoice
  rw [readVariable_of_isUsable (isUsable_of_choice h)]
  cases htext : environment.text? name with
  | none => rfl
  | some text =>
      have hset : environment name ≠ none := by
        intro hnone
        simp [Environment.text?, hnone] at htext
      cases hchoice : parse? text with
      | none => simp [isUsable, htext, hchoice, hset] at h
      | some choice => simp [hchoice]

/-- Only a usable variable is read as a choice. -/
theorem isUsable_of_readChoice {choice? : Option α}
    (h : readChoice environment name parse? allowed = .ok choice?) :
    isUsable environment name (fun s => (parse? s).isSome) = true := by
  unfold readChoice at h
  split at h
  case h_1 => cases h
  case h_2 hread =>
    have htext := isUsable_of_readVariable hread
    rw [readVariable_of_isUsable htext, Except.ok.injEq] at hread
    simpa [isUsable, hread] using htext
  case h_3 text hread =>
    have htext := isUsable_of_readVariable hread
    rw [readVariable_of_isUsable htext, Except.ok.injEq] at hread
    split at h
    case h_1 choice hchoice => simp [isUsable, hread, hchoice]
    case h_2 => cases h

end

/-! ### All four -/

/-- Usable variables replace the fields that they set. -/
theorem override_of_areUsable {environment : Environment} (h : AreUsable environment)
    (config : Config) :
    override environment config = .ok ((Layer.ofEnvironment environment).over config) := by
  simp only [override, readVariable_of_isUsable h.name, readVariable_of_isUsable h.message,
    readChoice_of_isUsable h.format, readChoice_of_isUsable h.verbosity]
  rfl

/-- **An unusable variable is a failure, whatever it would override.** -/
theorem override_of_not_areUsable {environment : Environment} (h : ¬AreUsable environment)
    (config : Config) : ∃ failure, override environment config = .error failure := by
  cases hresult : override environment config with
  | error failure => exact ⟨failure, rfl⟩
  | ok result =>
      exfalso
      unfold override at hresult
      obtain ⟨_, hname, hresult⟩ := Toml.bind_eq_ok.mp hresult
      obtain ⟨_, hmessage, hresult⟩ := Toml.bind_eq_ok.mp hresult
      obtain ⟨_, hformat, hresult⟩ := Toml.bind_eq_ok.mp hresult
      obtain ⟨_, hverbosity, -⟩ := Toml.bind_eq_ok.mp hresult
      exact h ⟨isUsable_of_readVariable hname, isUsable_of_readVariable hmessage,
        isUsable_of_readChoice hformat, isUsable_of_readChoice hverbosity⟩

end Salutation.Config
