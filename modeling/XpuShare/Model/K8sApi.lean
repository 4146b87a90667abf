import Mathlib.Tactic

/-! # Annotations in a pod's description

`k8s_api.c` takes an annotation out of the JSON text that describes a pod. It does not parse
the text but looks for the quoted name of the annotation. -/

namespace XpuShare

/-- The loop over the occurrences that `strstr` finds: the text from the first one on that no
backslash precedes. `prev` is the character before the text. -/
def findKey (search : List Char) : Option Char → List Char → Option (List Char)
  | _, [] => none
  | prev, ch :: rest =>
      if search.isPrefixOf (ch :: rest) ∧ prev ≠ some '\\' then some (ch :: rest)
      else findKey search (some ch) rest

/-- What follows the next colon: the text up to the next quote if it starts with one. -/
def valueAfterColon (pos : List Char) : Option (List Char) :=
  match pos.dropWhile (· ≠ ':') with
  | [] => none
  | _ :: rest =>
      match rest.dropWhile fun ch => ch = ' ' ∨ ch = '\t' with
      | '"' :: body => if '"' ∈ body then some (body.takeWhile (· ≠ '"')) else none
      | _ => none

/-- `extract_json_string`, if there is memory for the result; NULL is `none`. The buffer for the
quoted name has 128 bytes. -/
def extractJsonString (json key : List Char) : Option (List Char) :=
  let search := ('"' :: (key ++ ['"'])).take 127
  (findKey search none json).bind valueAfterColon

end XpuShare
