/-
Addresses as URIs.

An address that has been read is read once more when a message is sent to it, as a URI, and
not every address is one.  The path and the query of an address are written with the escapes
that a URI wants; but the host may hold signs that stand for themselves in an address and for
nothing in a URI.
-/
import ParameterManager.Url.Basic

namespace ParameterManager

namespace Uri

/-! ### Authorities -/

/-- How many colons an authority may have before it is given up. -/
def maxColons : Nat := 8

/-- Whether a character of an authority stands for itself only. -/
def isPlain (c : Char) : Bool :=
  c.isAlphanum || c.toNat == 0x27 ||
    Percent.isOneOf ['!', '$', '&', '(', ')', '*', '+', ',', '-', '.', ';', '=', '_', '~'] c.toNat

/-- What has been seen of an authority.  Colons and escapes count from the last user or closing
bracket on. -/
structure Scan where
  colons : Nat := 0
  escaped : Bool := false
  opened : Bool := false
  closed : Bool := false
  deriving DecidableEq

/-- What has been seen after one more character, if it may stand there. -/
def Scan.step (s : Scan) (c : Char) : Option Scan :=
  if c = ':' then if s.colons < maxColons then some { s with colons := s.colons + 1 } else none
  else if c = '[' then if s.escaped ∨ s.opened then none else some { s with opened := true }
  else if c = ']' then
    if s.opened ∧ !s.closed then some { s with closed := true, colons := 0, escaped := false }
    else none
  else if c = '@' then some { s with colons := 0, escaped := false }
  else if c = '%' then some { s with escaped := true }
  else if isPlain c then some s
  else none

/-- Whether characters are an authority: there is a host, with one colon after it at most, and
escapes stand in the user or in brackets only. -/
def isAuthority (cs : List Char) : Bool :=
  match cs.foldlM Scan.step {} with
  | some s => !cs.isEmpty && s.opened == s.closed && s.colons ≤ 1 && !s.escaped &&
      cs.getLast? != some '@'
  | none => false

/-! ### Paths and queries -/

/-- Whether a character may stand in the path. -/
def isPathChar (c : Char) : Bool :=
  0x21 ≤ c.toNat && c.toNat ≤ 0x7E && !Percent.isOneOf ['#', '<', '>', '?', '\x60'] c.toNat

/-- Whether a character may stand in the query. -/
def isQueryChar (c : Char) : Bool :=
  0x21 ≤ c.toNat && c.toNat ≤ 0x7E && !Percent.isOneOf ['"', '#', '<', '>'] c.toNat

/-! ### Addresses -/

/-- The greatest length of a scheme that two slashes come after. -/
def maxScheme : Nat := 64

/-- Whether an address is a URI.  The fragment is not looked at; without a host the whole text is
taken for an authority. -/
def accepts (u : Url) : Bool :=
  match u.host with
  | some host =>
    u.scheme.length ≤ maxScheme && isAuthority (u.authority host).toList &&
      u.pathText.toList.all isPathChar && (u.query.getD "").toList.all isQueryChar
  | none => isAuthority u.text.toList

end Uri

end ParameterManager
