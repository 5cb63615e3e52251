/-
Distinguished encoding: trees of numbers and bytes.

An item is a tag, a length and as many bytes.  The encoding is distinguished: a length
takes as few bytes as it can, and a number has no leading zeros beyond the one that
keeps it from being negative.
-/
import ParameterManager.Text.Utf8

namespace ParameterManager.Der

/-- The tag of a whole number. -/
def tagInteger : Nat := 0x02

/-- The tag of a sequence of bytes. -/
def tagBytes : Nat := 0x04

/-- The tag of nothing. -/
def tagNull : Nat := 0x05

/-- The tag of the identifier of an object. -/
def tagObject : Nat := 0x06

/-- The tag of a sequence of items. -/
def tagSequence : Nat := 0x30

structure Item where
  tag : Nat
  content : Bytes
  deriving DecidableEq, Repr

/-- The number that bytes stand for, the greatest first. -/
def toNat (bs : Bytes) : Nat := bs.foldl (fun n b => n * 256 + b.toNat) 0

/-- A length at the start of some bytes, and the bytes after it. -/
def length? : Bytes → Option (Nat × Bytes)
  | [] => none
  | b :: rest =>
    if b.toNat < 0x80 then some (b.toNat, rest)
    else
      let count := b.toNat - 0x80
      let ds := rest.take count
      if count = 0 ∨ 4 < count ∨ ds.length < count then none
      else
        let n := toNat ds
        if n < 0x80 ∨ n < Nat.pow 256 (count - 1) then none else some (n, rest.drop count)

/-- The item at the start of some bytes, and the bytes after it. -/
def item? : Bytes → Option (Item × Bytes)
  | [] => none
  | tag :: rest => do
    let (n, rest) ← length? rest
    if rest.length < n then none else some (⟨tag.toNat, rest.take n⟩, rest.drop n)

/-- All items of some bytes; the bound is the number of bytes. -/
def itemsWithin : Nat → Bytes → Option (List Item)
  | _, [] => some []
  | 0, _ :: _ => none
  | fuel + 1, bs => do
    let (item, rest) ← item? bs
    let items ← itemsWithin fuel rest
    some (item :: items)

def items? (bs : Bytes) : Option (List Item) := itemsWithin bs.length bs

def sequence? (bs : Bytes) : Option (List Item) := do
  match ← items? bs with
  | [item] => if item.tag = tagSequence then items? item.content else none
  | _ => none

/-- The number that an item is, if it is one and not negative. -/
def Item.natural? (i : Item) : Option Nat :=
  if i.tag ≠ tagInteger then none
  else match i.content with
    | [] => none
    | [b] => if b.toNat < 0x80 then some b.toNat else none
    | a :: b :: rest =>
      if 0x80 ≤ a.toNat ∨ (a.toNat = 0 ∧ b.toNat < 0x80) then none else some (toNat (a :: b :: rest))

end ParameterManager.Der
