import ClassScript.Listing.Invisible

/-!
# Quoted text in listings

Strings and characters are written between quotes. Line breaks, tabs, the backslash and the quote
itself get a backslash, and characters that do not print by themselves are written by number.
-/

namespace ClassScript.Listing

/-- A character inside quotes. -/
def escaped (quote c : Char) : String :=
  if c = '\x00' then "\\0"
  else if c = '\t' then "\\t"
  else if c = '\r' then "\\r"
  else if c = '\n' then "\\n"
  else if c = '\\' ∨ c = quote then String.ofList ['\\', c]
  else if isInvisible c then
    "\\u\x7b" ++ String.ofList (Nat.toDigits 16 c.toNat) ++ "\x7d"
  else c.toString

def quotedString (text : String) : String :=
  "\"" ++ String.join (text.toList.map (escaped '"')) ++ "\""

def quotedChar (c : Char) : String :=
  "'" ++ escaped '\'' c ++ "'"

end ClassScript.Listing
