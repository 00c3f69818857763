/-!
# Keyboard layouts

A layout says which character a key gives.  Characters are ASCII; zero stands for
a key without a character.
-/

set_option autoImplicit false

namespace GuestConsole.Keyboard

structure Layout where
  name : String
  base : UInt8 → UInt8
  shift : UInt8 → UInt8
  /-- the character that alt makes of another one, on keyboards that have such keys -/
  alternate : Option (UInt8 → Option UInt8)

namespace Layout

def shifted (layout : Layout) (code : UInt8) : UInt8 := layout.shift (layout.base code)

def alternate? (layout : Layout) (code : UInt8) : Option UInt8 :=
  layout.alternate.bind fun alternate => alternate (layout.base code)

def entry (table : List UInt8) (index : UInt8) : UInt8 := table.getD index.toNat 0

def codes (text : String) : List UInt8 := text.toList.map fun c => UInt8.ofNat c.toNat

def run (first count : Nat) : List UInt8 := (List.range' first count).map UInt8.ofNat

def editing : List UInt8 := [13, 27, 8, 10, 32]

def usBase : List UInt8 :=
  List.replicate 4 0 ++ codes "abcdefghijklmnopqrstuvwxyz1234567890" ++ editing
    ++ codes "-=[]\\~;'\x60,./"

def usShift : List UInt8 :=
  run 0 33 ++ codes "!\"#$%&'()*+<_>?" ++ codes ")!@#$%^&*(::<+>?"
    ++ codes "@ABCDEFGHIJKLMNOPQRSTUVWXYZ\x7b|\x7d^_"
    ++ codes "~ABCDEFGHIJKLMNOPQRSTUVWXYZ\x7b|\x7d~" ++ [127]

def us : Layout := ⟨"us", entry usBase, entry usShift, none⟩

def germanBase : List UInt8 :=
  List.replicate 4 0 ++ codes "abcdefghijklmnopqrstuvwxzy1234567890" ++ editing
    ++ codes "?\x60u+#~oa^,.-" ++ codes "ABCDEFGHIJKLMNOPQRS" ++ [127] ++ codes "UVWXYZ"
    ++ codes "abcdefghijklmnopq<stuvwxyz" ++ codes "0123456789!\"@$%&/()"

def germanShift : List UInt8 :=
  run 0 33 ++ codes "!\"'$%&'()**;_:/" ++ codes "=!\"@$%&/():;>=>?"
    ++ codes "@ABCDEFGHIJKLMNOPQRSTUVWXYZ[\\]^_"
    ++ codes "\x60ABCDEFGHIJKLMNOPQRSTUVWXYZ\x7b|\x7d~" ++ [127]

/-- The characters on the right of German keycaps, each with that of its key. -/
def germanKeycaps : List (UInt8 × UInt8) :=
  (codes "7890?q+<").zip (codes "\x7b[]\x7d\\@~|")

/-- The German layout.  An umlaut gives its base letter. -/
def german : Layout :=
  ⟨"german", entry germanBase, entry germanShift, some fun base => germanKeycaps.lookup base⟩

end Layout

end GuestConsole.Keyboard
