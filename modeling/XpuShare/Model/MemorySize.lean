import XpuShare.Lib.Double
import XpuShare.Model.Config

/-! # Memory sizes

A memory limit is written as a number and a unit. `hook.c` reads it from the environment of
the container, `k8s_api.c` from an annotation of the pod, each with a `parse_memory_size` of
its own. -/

namespace XpuShare

/-! ## Numbers -/

def isHexDigit (ch : Char) : Bool := ch.isDigit || 'a' ≤ ch.toLower && ch.toLower ≤ 'f'

def digitValue (ch : Char) : ℕ :=
  if ch.isDigit then ch.toNat - '0'.toNat else ch.toLower.toNat - 'a'.toNat + 10

def ofDigits (base : ℕ) (digits : List Char) : ℕ :=
  digits.foldl (fun n ch => base * n + digitValue ch) 0

/-- The digits of a hexadecimal number and what follows them. -/
def hexBody : List Char → Option (List Char)
  | '0' :: x :: digit :: rest =>
      if (x = 'x' ∨ x = 'X') ∧ isHexDigit digit then some (digit :: rest) else none
  | _ => none

/-- `strtod` on a text without blanks or a sign at its start, without a point and without an
exponent: the number and the rest of the text, which is all of it if there is no number. -/
def strtod (text : List Char) : ℕ × List Char :=
  match hexBody text with
  | some body =>
      (Double.round (ofDigits 16 (body.takeWhile isHexDigit)), body.dropWhile isHexDigit)
  | none =>
      (Double.round (ofDigits 10 (text.takeWhile Char.isDigit)), text.dropWhile Char.isDigit)

/-- A double as a `size_t`. C leaves open what becomes of one that is too large, and `wild`
says what does. -/
def doubleToSizeT (wild : ℕ → ℕ) (d : ℕ) : ℕ := if d < sizeMod then d else wild d

/-! ## `parse_memory_size` of `hook.c` -/

/-- The next character is an `i`. -/
def nextIsI : List Char → Bool
  | ch :: _ => ch = 'i' || ch = 'I'
  | [] => false

/-- The number of bytes, by the first letter of the unit and the one after it. -/
def Hook.scale (value : ℕ) : List Char → ℕ
  | ch :: rest =>
      if ch = 'G' ∨ ch = 'g' then
        if nextIsI rest then Double.mul value (1024 * 1024 * 1024)
        else Double.mul value (1000 * 1000 * 1000)
      else if ch = 'M' ∨ ch = 'm' then
        if nextIsI rest then Double.mul value (1024 * 1024) else Double.mul value (1000 * 1000)
      else if ch = 'K' ∨ ch = 'k' then
        if nextIsI rest then Double.mul value 1024 else Double.mul value 1000
      else value
  | [] => value

def Hook.parseMemorySize (wild : ℕ → ℕ) (text : List Char) : ℕ :=
  let (value, endptr) := strtod text
  doubleToSizeT wild (Hook.scale value (endptr.dropWhile (· = ' ')))

/-! ## `parse_memory_size` of `k8s_api.c` -/

/-- `strcasecmp(a, b) == 0`. -/
def strcasecmpEq (a b : List Char) : Bool := a.map Char.toLower = b.map Char.toLower

def K8sApi.parseMemorySize (wild : ℕ → ℕ) (text : List Char) : ℕ :=
  if text = [] then 0
  else
    let (value, endptr) := strtod text
    if endptr = text then 0
    else
      let unit := endptr.dropWhile (· = ' ')
      if strcasecmpEq unit "Gi".toList || strcasecmpEq unit "GiB".toList then
        doubleToSizeT wild (Double.mul (Double.mul (Double.mul value 1024) 1024) 1024)
      else if strcasecmpEq unit "Mi".toList || strcasecmpEq unit "MiB".toList then
        doubleToSizeT wild (Double.mul (Double.mul value 1024) 1024)
      else if strcasecmpEq unit "Ki".toList || strcasecmpEq unit "KiB".toList then
        doubleToSizeT wild (Double.mul value 1024)
      else if unit = [] || strcasecmpEq unit "B".toList then doubleToSizeT wild value
      else 0

end XpuShare
