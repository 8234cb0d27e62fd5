/-
A document that is read has no key twice.

The only values with keys in them are inline tables, and an inline table is put together by
assignments, like the document around it.  So the argument for values is an induction on the
depth of the reader, and for documents one more step of assembly.
-/
import Salutation.Proofs.Toml.Assembly
import Salutation.Proofs.Toml.Refusal
import Salutation.Toml.Document

namespace Salutation.Toml

/-! ### Values -/

/-- A reader whose values have distinct keys. -/
def ValueReader.IsDistinct (read : ValueReader) : Prop :=
  ∀ text node rest, read text = .ok (node, rest) → node.Distinct

theorem leaf_isDistinct : ValueReader.IsDistinct leaf := by
  intro text node rest h
  obtain ⟨⟨value, after⟩, -, hresult⟩ := bind_eq_ok.mp h
  cases hresult
  exact .scalar _ _

section

variable {read : ValueReader} (hread : read.IsDistinct)

include hread

/-- The elements of an array are what the reader gives. -/
theorem elements_distinct {fuel : Nat} {text rest : List Char} {nodes : List Node}
    (h : elements read fuel text = .ok (nodes, rest)) : ∀ node ∈ nodes, node.Distinct := by
  induction fuel generalizing text nodes rest with
  | zero => cases h
  | succ fuel ih =>
      unfold elements at h
      obtain ⟨start, -, h⟩ := bind_eq_ok.mp h
      split at h
      case h_1 =>
        cases h
        simp
      case h_2 =>
        obtain ⟨⟨node, stop⟩, hnode, h⟩ := bind_eq_ok.mp h
        have hdistinct : node.Distinct := hread _ _ _ hnode
        dsimp only at h
        split at h
        case h_1 => cases h
        case h_2 =>
          obtain ⟨⟨others, after⟩, hothers, h⟩ := bind_eq_ok.mp h
          cases h
          exact List.forall_mem_cons.mpr ⟨hdistinct, ih hothers⟩
        case h_3 =>
          cases h
          simpa using hdistinct
        case h_4 => cases h

theorem assignment?_distinct {text rest : List Char} {assignment : Assignment}
    (h : assignment? read text = .ok (some (assignment, rest))) : assignment.value.Distinct := by
  unfold assignment? at h
  obtain ⟨path?, -, h⟩ := bind_eq_ok.mp h
  split at h
  case h_1 => cases h
  case h_2 =>
    obtain ⟨⟨node, after⟩, hnode, h⟩ := bind_eq_ok.mp h
    cases h
    exact hread _ _ _ hnode
  case h_3 => cases h

theorem members_distinct {fuel : Nat} {text rest : List Char} {assignments : List Assignment}
    (h : members read fuel text = .ok (assignments, rest)) :
    ∀ assignment ∈ assignments, assignment.value.Distinct := by
  induction fuel generalizing text assignments rest with
  | zero =>
      cases h
      simp
  | succ fuel ih =>
      unfold members at h
      obtain ⟨first?, hfirst, h⟩ := bind_eq_ok.mp h
      split at h
      case h_1 =>
        cases h
        simp
      case h_2 first after =>
        have hdistinct : first.value.Distinct := assignment?_distinct hread hfirst
        split at h
        case h_1 =>
          obtain ⟨⟨others, stop⟩, hothers, h⟩ := bind_eq_ok.mp h
          split at h
          case h_1 =>
            cases h
            simpa using hdistinct
          case h_2 hsome =>
            cases hsome
            cases h
            exact List.forall_mem_cons.mpr ⟨hdistinct, ih hothers⟩
        case h_2 =>
          cases h
          simpa using hdistinct

end

/-- Values have distinct keys, at every depth. -/
theorem valueWithin_isDistinct (depth : Nat) : ValueReader.IsDistinct (valueWithin depth) := by
  induction depth with
  | zero =>
      intro text node rest h
      unfold valueWithin at h
      split at h
      case h_1 => cases h
      case h_2 => cases h
      case h_3 => exact leaf_isDistinct _ _ _ h
  | succ depth ih =>
      intro text node rest h
      unfold valueWithin at h
      split at h
      case h_1 =>
        obtain ⟨⟨nodes, after⟩, hnodes, h⟩ := bind_eq_ok.mp h
        cases h
        exact .array (elements_distinct ih hnodes)
      case h_2 =>
        obtain ⟨⟨assignments, stop⟩, hmembers, h⟩ := bind_eq_ok.mp h
        obtain ⟨table, htable, h⟩ := bind_eq_ok.mp h
        have hdistinct : table.Distinct := by
          unfold inlineTable at htable
          split at htable
          case h_1 hassigned =>
            cases htable
            exact Table.Distinct.nil.assignAll (members_distinct ih hmembers) hassigned
          case h_2 => cases htable
        split at h
        case h_1 =>
          cases h
          exact Node.distinct_table_iff.mpr hdistinct
        case h_2 => cases h
      case h_3 => exact leaf_isDistinct _ _ _ h

/-! ### Documents -/

theorem statement_distinct {text rest : List Char} {assignment : Assignment}
    (h : statement text = .ok (.assign assignment, rest)) : assignment.value.Distinct := by
  unfold statement at h
  split at h
  case h_1 =>
    obtain ⟨⟨header, after⟩, -, h⟩ := bind_eq_ok.mp h
    cases h
  case h_2 =>
    obtain ⟨assignment?, hassignment, h⟩ := bind_eq_ok.mp h
    split at h
    case h_1 => cases h
    case h_2 =>
      obtain ⟨next, -, h⟩ := bind_eq_ok.mp h
      cases h
      exact assignment?_distinct (valueWithin_isDistinct nestingLimit) hassignment

theorem statements_distinct {fuel : Nat} {text : List Char} {assignment : Assignment}
    (h : Statement.assign assignment ∈ (statements fuel text).1) :
    assignment.value.Distinct := by
  induction fuel generalizing text with
  | zero => simp [statements] at h
  | succ fuel ih =>
      unfold statements at h
      dsimp only at h
      split at h
      case h_1 => simp at h
      case h_2 => exact ih h
      case h_3 => simp at h
      case h_4 =>
        split at h
        case h_1 => simp at h
        case h_2 first rest hfirst =>
          rcases List.mem_cons.mp h with rfl | hlater
          · exact statement_distinct hfirst
          · exact ih hlater

/-- **A document that is read has no key twice**, in any of its tables. -/
theorem document_distinct {text : List Char} {table : Table} (h : document text = .ok table) :
    table.Distinct := by
  unfold document at h
  dsimp only at h
  split at h
  case h_1 => cases h
  case h_2 => cases h
  case h_3 hassembled _ =>
    cases h
    exact assemble_distinct (fun assignment hmem => statements_distinct hmem) hassembled

end Salutation.Toml
