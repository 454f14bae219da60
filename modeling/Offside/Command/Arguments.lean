/-
  The arguments of the command that lists tokens: options and one path, in any order.

  What starts with a dash is an option and must be one of the two known; everything else is the
  path, of which there is exactly one.  Arguments are taken from the left and the first that is at
  fault is reported; a path that is missing shows only at the end.
-/
import Offside.Command.Failure
import Offside.Dump

namespace Offside.Command

/-- One argument, by what it asks for. -/
inductive Argument
  | hideContent
  | showState
  | unknownOption (flag : String)
  | path (name : String)
  deriving DecidableEq, Repr

/-- What a word on the command line asks for.  A dash alone is an option too, and an unknown one;
    the empty word is a path. -/
def Argument.ofWord (word : String) : Argument :=
  if word = "--no-content" then .hideContent
  else if word = "--state" then .showState
  else if word.toList.head? = some '-' then .unknownOption word
  else .path word

/-- What is to be listed, and how. -/
structure Request where
  path : String
  options : Dump.Options
  deriving DecidableEq, Repr

namespace Request

/-- Reads on, with the path and the options found so far.  The first word at fault decides the
    error; words behind it are not looked at. -/
def ofWordsFrom (path? : Option String) (options : Dump.Options) :
    List String → Except UsageError Request
  | [] =>
    match path? with
    | some path => .ok ⟨path, options⟩
    | none => .error .missingPath
  | word :: words =>
    match Argument.ofWord word with
    | .hideContent => ofWordsFrom path? { options with hideContent := true } words
    | .showState => ofWordsFrom path? { options with showState := true } words
    | .unknownOption flag => .error (.unknownOption flag)
    | .path name =>
      match path? with
      | some _ => .error (.unexpectedArgument name)
      | none => ofWordsFrom (some name) options words

/-- The request of a list of arguments. -/
def ofWords (words : List String) : Except UsageError Request := ofWordsFrom none {} words

example : (ofWords ["--state", "a", "--state"]).toOption = some ⟨"a", ⟨false, true⟩⟩ := by decide
example : (ofWords ["a", "b", "--bad"]) matches .error (.unexpectedArgument "b") := by decide
example : (ofWords ["a", "--bad", "b"]) matches .error (.unknownOption "--bad") := by decide

end Request

end Offside.Command
