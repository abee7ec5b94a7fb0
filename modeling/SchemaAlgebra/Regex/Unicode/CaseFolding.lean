-- SUMMARY: Simple case folding, and the characters that differ only by case.
import SchemaAlgebra.Regex.CharSet

/-!
# Case folding

Simple case folding, version 16 of Unicode. Two characters differ only by case
if they fold to the same one. Folding a set adds to it everything that differs
only by case from one of its members.
-/

namespace SchemaAlgebra.Unicode

/-- Characters that fold to others, and how far away those are; all other characters fold to
themselves. -/
def foldingRows : List (String × Int) := [
  ("41-5A", 32), ("B5", 775), ("C0-D6", 32), ("D8-DE", 32), ("100-12E/2", 1), ("132-136/2", 1),
  ("139-147/2", 1), ("14A-176/2", 1), ("178", -121), ("179-17D/2", 1), ("17F", -268), ("181", 210),
  ("182-184/2", 1), ("186", 206), ("187", 1), ("189-18A", 205), ("18B", 1), ("18E", 79),
  ("18F", 202), ("190", 203), ("191", 1), ("193", 205), ("194", 207), ("196", 211), ("197", 209),
  ("198", 1), ("19C", 211), ("19D", 213), ("19F", 214), ("1A0-1A4/2", 1), ("1A6", 218), ("1A7", 1),
  ("1A9", 218), ("1AC", 1), ("1AE", 218), ("1AF", 1), ("1B1-1B2", 217), ("1B3-1B5/2", 1),
  ("1B7", 219), ("1B8", 1), ("1BC", 1), ("1C4", 2), ("1C5", 1), ("1C7", 2), ("1C8", 1), ("1CA", 2),
  ("1CB-1DB/2", 1), ("1DE-1EE/2", 1), ("1F1", 2), ("1F2-1F4/2", 1), ("1F6", -97), ("1F7", -56),
  ("1F8-21E/2", 1), ("220", -130), ("222-232/2", 1), ("23A", 10795), ("23B", 1), ("23D", -163),
  ("23E", 10792), ("241", 1), ("243", -195), ("244", 69), ("245", 71), ("246-24E/2", 1),
  ("345", 116), ("370-372/2", 1), ("376", 1), ("37F", 116), ("386", 38), ("388-38A", 37),
  ("38C", 64), ("38E-38F", 63), ("391-3A1", 32), ("3A3-3AB", 32), ("3C2", 1), ("3CF", 8),
  ("3D0", -30), ("3D1", -25), ("3D5", -15), ("3D6", -22), ("3D8-3EE/2", 1), ("3F0", -54),
  ("3F1", -48), ("3F4", -60), ("3F5", -64), ("3F7", 1), ("3F9", -7), ("3FA", 1), ("3FD-3FF", -130),
  ("400-40F", 80), ("410-42F", 32), ("460-480/2", 1), ("48A-4BE/2", 1), ("4C0", 15),
  ("4C1-4CD/2", 1), ("4D0-52E/2", 1), ("531-556", 48), ("10A0-10C5", 7264), ("10C7", 7264),
  ("10CD", 7264), ("13F8-13FD", -8), ("1C80", -6222), ("1C81", -6221), ("1C82", -6212),
  ("1C83-1C84", -6210), ("1C85", -6211), ("1C86", -6204), ("1C87", -6180), ("1C88", 35267),
  ("1C89", 1), ("1C90-1CBA", -3008), ("1CBD-1CBF", -3008), ("1E00-1E94/2", 1), ("1E9B", -58),
  ("1E9E", -7615), ("1EA0-1EFE/2", 1), ("1F08-1F0F", -8), ("1F18-1F1D", -8), ("1F28-1F2F", -8),
  ("1F38-1F3F", -8), ("1F48-1F4D", -8), ("1F59-1F5F/2", -8), ("1F68-1F6F", -8), ("1F88-1F8F", -8),
  ("1F98-1F9F", -8), ("1FA8-1FAF", -8), ("1FB8-1FB9", -8), ("1FBA-1FBB", -74), ("1FBC", -9),
  ("1FBE", -7173), ("1FC8-1FCB", -86), ("1FCC", -9), ("1FD3", -7235), ("1FD8-1FD9", -8),
  ("1FDA-1FDB", -100), ("1FE3", -7219), ("1FE8-1FE9", -8), ("1FEA-1FEB", -112), ("1FEC", -7),
  ("1FF8-1FF9", -128), ("1FFA-1FFB", -126), ("1FFC", -9), ("2126", -7517), ("212A", -8383),
  ("212B", -8262), ("2132", 28), ("2160-216F", 16), ("2183", 1), ("24B6-24CF", 26),
  ("2C00-2C2F", 48), ("2C60", 1), ("2C62", -10743), ("2C63", -3814), ("2C64", -10727),
  ("2C67-2C6B/2", 1), ("2C6D", -10780), ("2C6E", -10749), ("2C6F", -10783), ("2C70", -10782),
  ("2C72", 1), ("2C75", 1), ("2C7E-2C7F", -10815), ("2C80-2CE2/2", 1), ("2CEB-2CED/2", 1),
  ("2CF2", 1), ("A640-A66C/2", 1), ("A680-A69A/2", 1), ("A722-A72E/2", 1), ("A732-A76E/2", 1),
  ("A779-A77B/2", 1), ("A77D", -35332), ("A77E-A786/2", 1), ("A78B", 1), ("A78D", -42280),
  ("A790-A792/2", 1), ("A796-A7A8/2", 1), ("A7AA", -42308), ("A7AB", -42319), ("A7AC", -42315),
  ("A7AD", -42305), ("A7AE", -42308), ("A7B0", -42258), ("A7B1", -42282), ("A7B2", -42261),
  ("A7B3", 928), ("A7B4-A7C2/2", 1), ("A7C4", -48), ("A7C5", -42307), ("A7C6", -35384),
  ("A7C7-A7C9/2", 1), ("A7CB", -42343), ("A7CC", 1), ("A7D0", 1), ("A7D6-A7DA/2", 1),
  ("A7DC", -42561), ("A7F5", 1), ("AB70-ABBF", -38864), ("FB05", 1), ("FF21-FF3A", 32),
  ("10400-10427", 40), ("104B0-104D3", 40), ("10570-1057A", 39), ("1057C-1058A", 39),
  ("1058C-10592", 39), ("10594-10595", 39), ("10C80-10CB2", 64), ("10D50-10D65", 32),
  ("118A0-118BF", 32), ("16E40-16E5F", 32), ("1E900-1E921", 34)]

/-- Folding as characters with their distance from what they fold to. -/
structure Folding where
  rows : List (CharSet × Int)
  /-- Everything that folds to another character. -/
  sources : CharSet
  /-- Everything that another character folds to. -/
  targets : CharSet

def Folding.ofRows (rows : List (CharSet × Int)) : Folding :=
  ⟨rows, .unions (rows.map Prod.fst), .unions (rows.map fun (sources, distance) => sources.shift distance)⟩

def folding : Folding := .ofRows (foldingRows.map fun (item, distance) => (.ofTable [item], distance))

/-- Folding among the letters of ASCII. -/
def asciiFolding : Folding := .ofRows [(.range 65 90, 32)]

end SchemaAlgebra.Unicode

namespace SchemaAlgebra.CharSet

/-- Adds what the members fold to. -/
def addTargets (folding : Unicode.Folding) (s : CharSet) : CharSet :=
  let affected := s.intersection folding.sources
  s.union (unions (folding.rows.map fun (sources, distance) => (affected.intersection sources).shift distance))

/-- Adds what folds to a member. -/
def addSources (folding : Unicode.Folding) (s : CharSet) : CharSet :=
  let affected := s.intersection folding.targets
  s.union (unions (folding.rows.map fun (sources, distance) =>
    (affected.intersection (sources.shift distance)).shift (-distance)))

/-- Everything that differs only by case from a member, among the letters of ASCII or everywhere. -/
def foldCase (asciiOnly : Bool) (s : CharSet) : CharSet :=
  let folding := if asciiOnly then Unicode.asciiFolding else Unicode.folding
  addSources folding (addTargets folding s)

end SchemaAlgebra.CharSet
