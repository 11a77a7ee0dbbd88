import ProcessEngine.Text.Digits

/-!
# Unique identifiers

Tokens, executions and gateway states are told apart by identifiers of 128 bits, written as five
groups of hexadecimal digits.
-/

namespace ProcessEngine

/-- A unique identifier. -/
structure Uid where
  value : Nat
deriving DecidableEq, Repr, Inhabited

namespace Uid

/-- The written form: at least 32 lower-case hexadecimal digits, in groups of 8, 4, 4, 4 and 12
counted from the end. -/
def chars (u : Uid) : List Char :=
  let ds := Text.padded 16 32 u.value
  let lead := ds.length - 24
  ds.take lead ++ '-' :: (ds.drop lead).take 4 ++ '-' :: (ds.drop (lead + 4)).take 4 ++
    '-' :: (ds.drop (lead + 8)).take 4 ++ '-' :: ds.drop (lead + 12)

/-- The written form. -/
def text (u : Uid) : String := String.ofList u.chars

/-- The identifier behind 32 hexadecimal digits. -/
def ofDigits? (cs : List Char) : Option Uid :=
  if cs.length = 32 then (Text.hexValue? cs).map Uid.mk else none

/-- The identifier behind five groups of hexadecimal digits. -/
def ofGroups? (cs : List Char) : Option Uid :=
  if cs.length = 36 && cs[8]? == some '-' && cs[13]? == some '-' && cs[18]? == some '-' &&
      cs[23]? == some '-' then
    ofDigits? (cs.take 8 ++ (cs.drop 9).take 4 ++ (cs.drop 14).take 4 ++ (cs.drop 19).take 4 ++
      cs.drop 24)
  else none

/-- Reads an identifier: groups, bare, in braces or behind `urn:uuid:`, in either case. -/
def ofText? (s : String) : Option Uid :=
  let cs := s.toList
  if cs.length = 32 then ofDigits? cs
  else if cs.length = 36 then ofGroups? cs
  else if cs.length = 38 && cs.head? == some '\x7b' && cs.getLast? == some '\x7d' then
    ofGroups? ((cs.drop 1).take 36)
  else if cs.length = 45 && (cs.take 9).map Char.toLower == "urn:uuid:".toList then
    ofGroups? (cs.drop 9)
  else none

end Uid

end ProcessEngine
