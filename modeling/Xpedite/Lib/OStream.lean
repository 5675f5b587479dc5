import Mathlib.Data.List.Basic

/-!
An output stream of C++: the base and the fill character stay as they are set,
the width holds for the next field only.
-/

namespace Xpedite.Lib

structure OStream where
  text : List Char
  hexadecimal : Bool
  width : Nat
  fill : Char

namespace OStream

def new : OStream := ⟨[], false, 0, ' '⟩

variable (stream : OStream)

def hex : OStream := { stream with hexadecimal := true }

def dec : OStream := { stream with hexadecimal := false }

def setw (width : Nat) : OStream := { stream with width := width }

def setfill (fill : Char) : OStream := { stream with fill := fill }

/-- `std::right`, which is how fields stand in their width anyway. -/
def right : OStream := stream

def put (field : List Char) : OStream :=
  { stream with text := stream.text ++ field.leftpad stream.width stream.fill, width := 0 }

def base : Nat := if stream.hexadecimal then 16 else 10

def number (value : Nat) : OStream := stream.put (Nat.toDigits stream.base value)

/-- A `const void*`; the null pointer has no mark of its base. -/
def pointer (address : Nat) : OStream :=
  stream.put (if address = 0 then ['0'] else '0' :: 'x' :: Nat.toDigits 16 address)

def endl : OStream := { stream with text := stream.text ++ ['\n'] }

end OStream

end Xpedite.Lib
