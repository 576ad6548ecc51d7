import Mathlib.Data.List.Basic
import TruthTable.Formula.ParseError

/-!
# The words of errors

A cause can be told from its description (`ParseError.Cause.description_injective`). Most
descriptions differ in their first characters already. Those that name a token have fixed words
around the name, so the name can be told too.
-/

namespace TruthTable.ParseError.Cause

/-- A text with a fixed beginning has the characters of the beginning. -/
private theorem getElem?_append {lead : String} {k : Nat} {c : Char}
    (here : lead.toList[k]? = some c) (middle rest : String) :
    (lead ++ middle ++ rest).toList[k]? = some c := by
  rw [String.toList_append, String.toList_append, List.append_assoc,
    List.getElem?_append_left (List.getElem?_eq_some_iff.mp here).1, here]

private theorem eq_of_append_eq {lead found found' rest : String}
    (same : lead ++ found ++ rest = lead ++ found' ++ rest) : found = found' := by
  rwa [String.append_left_inj, String.append_right_inj] at same

/-- The first character of a description. -/
private def initial : ParseError.Cause → Char
  | .tooDeep => 'f'
  | .missingFormula | .missingConnective | .strayClose | .unmatchedClose => 'u'
  | .missingClose => 'm'
  | .missingLeft _ => '\''
  | .notConnective _ | .notClose _ => 'e'

private theorem getElem?_description (cause : ParseError.Cause) :
    cause.description.toList[0]? = some cause.initial := by
  cases cause with
  | missingLeft => exact getElem?_append (c := '\'') (by decide +kernel) _ _
  | notConnective | notClose => exact getElem?_append (c := 'e') (by decide +kernel) _ _
  | _ => decide +kernel

/-- A connective and a closing parenthesis are not expected in the same words. -/
private theorem description_notConnective_ne (found found' : String) :
    (notConnective found).description ≠ (notClose found').description := by
  intro same
  have one : (notConnective found).description.toList[9]? = some 'a' :=
    getElem?_append (by decide +kernel) _ _
  have other : (notClose found').description.toList[9]? = some '\'' :=
    getElem?_append (by decide +kernel) _ _
  rw [same, other] at one
  cases one

/-- No two causes have the same description. -/
theorem description_injective : Function.Injective description := by
  intro one other same
  have initials : one.initial = other.initial := by
    have heads := one.getElem?_description
    rw [same, other.getElem?_description] at heads
    exact (Option.some.inj heads).symm
  cases one with
  | missingLeft found =>
    cases other with
    | missingLeft found' =>
      rw [eq_of_append_eq same]
    | _ => simp [initial] at initials
  | notConnective found =>
    cases other with
    | notConnective found' =>
      rw [eq_of_append_eq same]
    | notClose found' => exact absurd same (description_notConnective_ne found found')
    | _ => simp [initial] at initials
  | notClose found =>
    cases other with
    | notConnective found' => exact absurd same.symm (description_notConnective_ne found' found)
    | notClose found' =>
      rw [eq_of_append_eq same]
    | _ => simp [initial] at initials
  | _ =>
    cases other with
    | missingLeft | notConnective | notClose => simp [initial] at initials
    | _ => first | rfl | exact absurd same (by decide +kernel)

/-- A description among those of some causes is the description of one of them. -/
theorem mem_of_description_mem {cause : ParseError.Cause} {causes : List ParseError.Cause}
    (mem : cause.description ∈ causes.map description) : cause ∈ causes :=
  (List.mem_map_of_injective description_injective).mp mem

end TruthTable.ParseError.Cause
