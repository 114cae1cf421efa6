/-!
Code units: the size of a text in the units in which a client counts the characters of a line.
-/

namespace FormatServer.Text

/-- The units in which a client counts characters. -/
inductive Encoding where
  | utf8
  | utf16
  | utf32
  deriving DecidableEq, Repr

namespace Encoding

def name : Encoding → String
  | utf8 => "utf-8"
  | utf16 => "utf-16"
  | utf32 => "utf-32"

def ofName? : String → Option Encoding
  | "utf-8" => some utf8
  | "utf-16" => some utf16
  | "utf-32" => some utf32
  | _ => none

def width : Encoding → Char → Nat
  | utf8, c => c.utf8Size
  | utf16, c => if c.toNat < 0x10000 then 1 else 2
  | utf32, _ => 1

def size (e : Encoding) : List Char → Nat
  | [] => 0
  | c :: cs => e.width c + size e cs

theorem width_pos (e : Encoding) (c : Char) : 0 < e.width c := by
  cases e with
  | utf8 => exact c.utf8Size_pos
  | utf16 => simp only [width]; split <;> decide
  | utf32 => exact Nat.one_pos

@[simp] theorem size_nil (e : Encoding) : e.size [] = 0 := rfl

@[simp] theorem size_cons (e : Encoding) (c : Char) (cs : List Char) :
    e.size (c :: cs) = e.width c + e.size cs := rfl

end Encoding

end FormatServer.Text
