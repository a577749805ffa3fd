/-
  WalletLogin.Text.CharName — characters by their Unicode names, in any letter case:
  the Latin and Greek letters without marks, the digits, and common signs.

  These are a small part of the names there are. Left out are the letters of all other
  scripts, most letters with marks, ideographs and syllables, and most signs and pictures.
  A name that is left out is taken for one that no character has.
-/

import WalletLogin.Text.Case

namespace WalletLogin.Text.CharName

def signs : List (String × Nat) := [
  ("space", 32), ("exclamation mark", 33), ("quotation mark", 34), ("number sign", 35),
  ("dollar sign", 36), ("percent sign", 37), ("ampersand", 38), ("apostrophe", 39),
  ("left parenthesis", 40), ("right parenthesis", 41), ("asterisk", 42), ("plus sign", 43),
  ("comma", 44), ("hyphen-minus", 45), ("full stop", 46), ("solidus", 47), ("colon", 58),
  ("semicolon", 59), ("less-than sign", 60), ("equals sign", 61), ("greater-than sign", 62),
  ("question mark", 63), ("commercial at", 64), ("left square bracket", 91),
  ("reverse solidus", 92), ("right square bracket", 93), ("circumflex accent", 94),
  ("low line", 95), ("grave accent", 96), ("left curly bracket", 123), ("vertical line", 124),
  ("right curly bracket", 125), ("tilde", 126), ("null", 0), ("nul", 0), ("backspace", 8),
  ("character tabulation", 9), ("tab", 9), ("line feed", 10), ("lf", 10), ("new line", 10),
  ("carriage return", 13), ("cr", 13), ("escape", 27), ("esc", 27), ("delete", 127),
  ("no-break space", 160), ("nbsp", 160), ("inverted exclamation mark", 161), ("cent sign", 162),
  ("pound sign", 163), ("currency sign", 164), ("yen sign", 165), ("section sign", 167),
  ("copyright sign", 169), ("left-pointing double angle quotation mark", 171), ("not sign", 172),
  ("soft hyphen", 173), ("registered sign", 174), ("degree sign", 176), ("plus-minus sign", 177),
  ("superscript two", 178), ("superscript three", 179), ("micro sign", 181), ("pilcrow sign", 182),
  ("middle dot", 183), ("superscript one", 185),
  ("right-pointing double angle quotation mark", 187), ("inverted question mark", 191),
  ("multiplication sign", 215), ("latin small letter sharp s", 223), ("division sign", 247),
  ("latin small letter e with acute", 233), ("latin small letter e with grave", 232),
  ("latin small letter a with diaeresis", 228), ("latin small letter o with diaeresis", 246),
  ("latin small letter u with diaeresis", 252), ("latin small letter n with tilde", 241),
  ("latin small letter c with cedilla", 231), ("zero width space", 0x200b), ("en dash", 0x2013),
  ("em dash", 0x2014), ("left single quotation mark", 0x2018),
  ("right single quotation mark", 0x2019), ("left double quotation mark", 0x201c),
  ("right double quotation mark", 0x201d), ("bullet", 0x2022), ("horizontal ellipsis", 0x2026),
  ("line separator", 0x2028), ("paragraph separator", 0x2029), ("euro sign", 0x20ac),
  ("trade mark sign", 0x2122), ("kelvin sign", 0x212a), ("rightwards arrow", 0x2192),
  ("infinity", 0x221e), ("black star", 0x2605), ("snowman", 0x2603), ("check mark", 0x2713),
  ("zero width no-break space", 0xfeff), ("replacement character", 0xfffd),
  ("grinning face", 0x1f600), ("pile of poo", 0x1f4a9)]

def numerals : List String :=
  ["zero", "one", "two", "three", "four", "five", "six", "seven", "eight", "nine"]

def greekLetters : List String := [
  "alpha", "beta", "gamma", "delta", "epsilon", "zeta", "eta", "theta", "iota", "kappa", "lamda",
  "mu", "nu", "xi", "omicron", "pi", "rho", "final sigma", "sigma", "tau", "upsilon", "phi", "chi",
  "psi", "omega"]

def latinLetters : List String := (List.range 26).map fun n => String.singleton (Char.ofNat (97 + n))

/-- The place of a name behind its beginning in a list, from a first code point on. -/
def among? (beginning : String) (first : Nat) (names : List String) (name : String) : Option Nat :=
  (names.idxOf? ((name.dropPrefix beginning).toString)).bind fun n =>
    if name = beginning ++ names.getD n "" then some (first + n) else none

def code? (name : List Char) : Option Nat :=
  let name := String.ofList (Case.lower name)
  ((signs.find? (·.1 = name)).map (·.2)).or <|
  (among? "digit " 48 numerals name).or <|
  (among? "latin small letter " 97 latinLetters name).or <|
  (among? "latin capital letter " 65 latinLetters name).or <|
  (among? "greek small letter " 0x3b1 greekLetters name).or <|
  among? "greek capital letter " 0x391 greekLetters name

end WalletLogin.Text.CharName
