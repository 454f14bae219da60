/-
  What is wrong with a list of arguments.

  1. **Words** — a word that starts with a dash is an option, and every other word is a path, the
     empty word too.  Two options are known.
  2. **Faults** — whether a word is at fault depends on the words in front of it alone: an unknown
     option always is, and a path is if there is another path in front.  So there is a first fault,
     or none.
-/
import Offside.Command.Arguments

namespace Offside.Command

/-! ## Words

  What a list of words holds is told without reading it in order: which paths there are, and which
  of the known options occur. -/

/-- Whether a word is an option: it starts with a dash. -/
def isOption (word : String) : Bool := word.toList.head? == some '-'

/-- The options that are known. -/
def knownOptions : List String := ["--no-content", "--state"]

/-- The words that are paths, in order. -/
def paths (words : List String) : List String := words.filter (!isOption ·)

/-- What the options among some words ask for. -/
def optionsOf (words : List String) : Dump.Options :=
  ⟨decide ("--no-content" ∈ words), decide ("--state" ∈ words)⟩

/-! ## Faults

  A fault is a matter of place.  The definitions speak of a word with some words in front of it, so
  that nothing has to be kept while a list is gone through. -/

/-- What is wrong with a word, behind other words. -/
def fault? (front : List String) (word : String) : Option UsageError :=
  if isOption word then
    if word ∈ knownOptions then none else some (.unknownOption word)
  else
    if paths front = [] then none else some (.unexpectedArgument word)

/-- No word is at fault behind those in front of it. -/
def Faultless (words : List String) : Prop :=
  ∀ front word back, words = front ++ word :: back → fault? front word = none

/-- What is wrong with the first word that is at fault. -/
def FirstFault (words : List String) (error : UsageError) : Prop :=
  ∃ front word back, words = front ++ word :: back ∧ Faultless front ∧ fault? front word = some error

/-! ## Small cases -/

example : isOption "-" = true ∧ isOption "" = false := by decide
example : paths ["--state", "", "-x", "a"] = ["", "a"] := by decide
example : fault? ["a", "--state"] "b" = some (.unexpectedArgument "b") := by decide

end Offside.Command
