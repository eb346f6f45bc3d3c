import SocChess.SpriteRom
import SocChess.ChessRenderer

/-!
# The sprite modules: `rtl/sprites/*_example.sv` and `*_palette.sv`

All fourteen modules are the same pipeline around a ROM. They differ in the address they
send to it and in the palette that turns a word into a colour.

* `spriteModules`: the fourteen.
* `palette_ne_black`: none of their palettes has the colour a module loads while `blank`
  is low.
-/

namespace SocChess

/-! ## Palettes -/

/-- `localparam [0:7][11:0] palette`, indexed by the three bits of a ROM word. -/
abbrev Palette := Vector Rgb 8

def Palette.colour (palette : Palette) (index : BitVec 3) : Rgb := Vector.get palette index.toFin

def rgb (red green blue : Nat) : Rgb where
  red := BitVec.ofNat 4 red
  green := BitVec.ofNat 4 green
  blue := BitVec.ofNat 4 blue

def wPawnPalette : Palette :=
  #v[rgb 0xF 0xF 0xF, rgb 0xF 0x8 0xD, rgb 0x6 0x5 0x6,
    rgb 0xB 0xB 0xB, rgb 0x4 0x4 0x4, rgb 0xD 0x7 0xB,
    rgb 0x9 0x7 0x8, rgb 0xD 0xD 0xD]

def wKnightPalette : Palette :=
  #v[rgb 0xF 0xF 0xF, rgb 0xF 0x8 0xD, rgb 0x5 0x5 0x5,
    rgb 0xB 0xB 0xB, rgb 0xD 0xD 0xD, rgb 0xD 0x7 0xA,
    rgb 0x3 0x4 0x3, rgb 0x8 0x6 0x7]

def wBishopPalette : Palette :=
  #v[rgb 0xF 0x8 0xD, rgb 0x4 0x4 0x4, rgb 0xF 0xF 0xF,
    rgb 0xB 0xB 0xB, rgb 0x9 0x7 0x8, rgb 0x6 0x5 0x5,
    rgb 0xD 0xD 0xD, rgb 0xD 0x7 0xB]

def wRookPalette : Palette :=
  #v[rgb 0xF 0x8 0xD, rgb 0x7 0x6 0x6, rgb 0xD 0xD 0xD,
    rgb 0xA 0x7 0x8, rgb 0xF 0xF 0xF, rgb 0xB 0xB 0xB,
    rgb 0x5 0x4 0x4, rgb 0xE 0x7 0xB]

def wQueenPalette : Palette :=
  #v[rgb 0xF 0x8 0xD, rgb 0x7 0x6 0x6, rgb 0xF 0xF 0xF,
    rgb 0xD 0xD 0xD, rgb 0x4 0x4 0x4, rgb 0x9 0x8 0x9,
    rgb 0xB 0xB 0xB, rgb 0xD 0x7 0xB]

def wKingPalette : Palette :=
  #v[rgb 0xF 0x8 0xD, rgb 0x4 0x4 0x3, rgb 0xF 0xF 0xF,
    rgb 0xD 0x7 0xA, rgb 0xB 0xB 0xB, rgb 0x6 0x5 0x6,
    rgb 0x9 0x7 0x8, rgb 0xD 0xD 0xD]

def bPawnPalette : Palette :=
  #v[rgb 0xF 0x8 0xD, rgb 0x5 0x5 0x5, rgb 0x2 0x2 0x2,
    rgb 0x8 0x5 0x7, rgb 0x4 0x4 0x4, rgb 0xE 0x8 0xB,
    rgb 0xA 0x7 0x9, rgb 0x7 0x7 0x7]

def bKnightPalette : Palette :=
  #v[rgb 0xF 0x8 0xD, rgb 0x5 0x5 0x5, rgb 0x2 0x2 0x2,
    rgb 0xA 0x6 0x8, rgb 0x4 0x4 0x4, rgb 0x7 0x6 0x6,
    rgb 0x8 0x8 0x7, rgb 0xC 0x8 0xA]

def bBishopPalette : Palette :=
  #v[rgb 0x5 0x5 0x5, rgb 0xF 0x8 0xD, rgb 0x2 0x2 0x2,
    rgb 0x7 0x6 0x6, rgb 0x4 0x4 0x4, rgb 0xA 0x6 0x8,
    rgb 0x8 0x8 0x7, rgb 0xD 0x8 0xB]

def bRookPalette : Palette :=
  #v[rgb 0xF 0x8 0xD, rgb 0x5 0x5 0x5, rgb 0x2 0x2 0x2,
    rgb 0xB 0x7 0x9, rgb 0x4 0x4 0x4, rgb 0x7 0x6 0x6,
    rgb 0x8 0x7 0x7, rgb 0xD 0x8 0xB]

def bQueenPalette : Palette :=
  #v[rgb 0x2 0x2 0x2, rgb 0xF 0x8 0xD, rgb 0x5 0x5 0x5,
    rgb 0x8 0x8 0x7, rgb 0x4 0x4 0x4, rgb 0xD 0x7 0xA,
    rgb 0x9 0x6 0x8, rgb 0x7 0x6 0x6]

def bKingPalette : Palette :=
  #v[rgb 0xD 0x7 0xA, rgb 0x5 0x5 0x5, rgb 0xF 0x8 0xD,
    rgb 0x2 0x2 0x2, rgb 0x8 0x8 0x7, rgb 0x6 0x6 0x6,
    rgb 0x4 0x4 0x4, rgb 0x8 0x5 0x7]

def selectedBorderPalette : Palette :=
  #v[rgb 0xF 0x4 0xD, rgb 0x0 0xF 0xF, rgb 0x0 0xF 0xF,
    rgb 0x0 0xF 0xF, rgb 0x0 0xF 0xF, rgb 0x0 0xF 0xF,
    rgb 0x0 0xF 0xF, rgb 0x0 0xF 0xF]

def chessboardPalette : Palette :=
  #v[rgb 0x7 0x9 0x5, rgb 0xE 0xE 0xD, rgb 0xB 0xC 0x9,
    rgb 0xA 0xB 0x8, rgb 0xE 0xE 0xC, rgb 0x9 0xA 0x7,
    rgb 0xD 0xD 0xB, rgb 0x7 0x9 0x5]

/-! ## Modules -/

/-- What distinguishes one sprite module from another. -/
structure SpriteModule where
  width : Nat
  romAddress : Coord → Coord → BitVec width
  palette : Palette

def whitePawn : SpriteModule := ⟨12, wPawnExample, wPawnPalette⟩
def whiteKnight : SpriteModule := ⟨12, wKnightExample, wKnightPalette⟩
def whiteBishop : SpriteModule := ⟨12, wBishopExample, wBishopPalette⟩
def whiteRook : SpriteModule := ⟨12, wRookExample, wRookPalette⟩
def whiteQueen : SpriteModule := ⟨12, wQueenExample, wQueenPalette⟩
def whiteKing : SpriteModule := ⟨12, wKingExample, wKingPalette⟩
def blackPawn : SpriteModule := ⟨12, bPawnExample, bPawnPalette⟩
def blackKnight : SpriteModule := ⟨12, bKnightExample, bKnightPalette⟩
def blackBishop : SpriteModule := ⟨12, bBishopExample, bBishopPalette⟩
def blackRook : SpriteModule := ⟨12, bRookExample, bRookPalette⟩
def blackQueen : SpriteModule := ⟨12, bQueenExample, bQueenPalette⟩
def blackKing : SpriteModule := ⟨12, bKingExample, bKingPalette⟩
def selectBorder : SpriteModule := ⟨12, selectedBorderExample, selectedBorderPalette⟩
def chessboardBg : SpriteModule := ⟨18, chessboardExample, chessboardPalette⟩

/-- The instances in `chess_renderer`. -/
def spriteModules : List SpriteModule :=
  [whitePawn, whiteKnight, whiteBishop, whiteRook, whiteQueen,
    whiteKing, blackPawn, blackKnight, blackBishop, blackRook,
    blackQueen, blackKing, selectBorder, chessboardBg]

/-- The colour a module loads while `blank` is low. -/
def blankColour : Rgb := rgb 0x0 0x0 0x0

theorem palette_ne_black {m : SpriteModule} (hm : m ∈ spriteModules) (index : BitVec 3) :
    m.palette.colour index ≠ blankColour := by
  have hall : ∀ m ∈ spriteModules, ∀ index, m.palette.colour index ≠ blankColour := by
    decide
  exact hall m hm index

end SocChess
