-- SUMMARY: Clusters of characters that are seen as one.
import SchemaAlgebra.Regex.Unicode.Format

/-!
# Grapheme clusters

What extends a cluster, what it is built on, and the classes by which text is
divided into clusters.
-/

namespace SchemaAlgebra.Unicode

/-- Extending characters that are not marks of width zero by category. -/
def otherGraphemeExtend : CharSet := .ofTable [
  "9BE 9D7 B3E B57 BBE BD7 CC0 CC2 CC7-CC8 CCA-CCB CD5-CD6 D3E D57 DCF DDF 1715 1734 1B35 1B3B",
  "1B3D 1B43-1B44 1BAA 1BF2-1BF3 200C 302E-302F A953 A9C0 FF9E-FF9F 111C0 11235 1133E 1134D",
  "11357 113B8 113C2 113C5 113C7-113C9 113CF 114B0 114BD 115AF 116B6 11930 1193D 11F41",
  "16FF0-16FF1 1D165-1D166 1D16D-1D172 E0020-E007F"]

def graphemeExtend : CharSet := .unions [nonspacingMark, enclosingMark, otherGraphemeExtend]

def graphemeBase : CharSet :=
  assigned.difference (.unions [control, format, privateUse, lineSeparator, paragraphSeparator, graphemeExtend])

/-- Signs that join two consonants. -/
def graphemeLink : CharSet := .ofTable ["113CE-113D0 1612F"]

-- ---------------------------------------------------------------------------
-- Classes
-- ---------------------------------------------------------------------------

/-- Skin tones. -/
def emojiModifier : CharSet := .ofTable ["1F3FB-1F3FF"]

/-- The letters that flags are made of. -/
def regionalIndicator : CharSet := .ofTable ["1F1E6-1F1FF"]

/-- Formats and separators outside any cluster. -/
def graphemeControl : CharSet :=
  (CharSet.unions [
    lineSeparator, paragraphSeparator, control, format, unassigned.intersection defaultIgnorable]).difference
      (.unions [.ofTable ["A D 200C-200D"], prependedConcatenationMark, graphemeExtend])

/-- Signs that belong to the consonant after them. -/
def clusterPrefix : CharSet := .ofTable ["D4E 111C2-111C3 113D1 1193F 11941 11A3A 11A84-11A89 11D46 11F02"]

/-- Spacing marks that do not belong to a cluster. -/
def detachedMark : CharSet := .ofTable [
  "102B-102C 1038 1062-1064 1067-106D 1083 1087-108C 108F 109A-109C 1A61 1A63-1A64 AA7B AA7D",
  "11720-11721"]

/-- The syllables of two sounds: every twenty-eighth one. -/
def hangulOpen : CharSet :=
  .unions ((List.range 399).map fun i => .single (0xAC00 + 28 * i))

/-- The classes of characters by which text is divided into clusters. -/
def graphemeBreaks : CharSet.Catalogue :=
  let extend := graphemeExtend.union emojiModifier
  [(["control", "cn"], graphemeControl), (["cr"], .single 13), (["lf"], .single 10),
   (["extend", "ex"], extend), (["zwj"], .single 0x200D),
   (["prepend", "pp"], clusterPrefix.union prependedConcatenationMark),
   (["spacingmark", "sm"],
    (spacingMark.union (.ofTable ["E33 EB3"])).difference (extend.union detachedMark)),
   (["regionalindicator", "ri"], regionalIndicator),
   (["l"], .ofTable ["1100-115F A960-A97C"]),
   (["v"], .ofTable ["1160-11A7 D7B0-D7C6 16D63 16D67-16D6A"]),
   (["t"], .ofTable ["11A8-11FF D7CB-D7FB"]),
   (["lv"], hangulOpen), (["lvt"], (CharSet.range 0xAC00 0xD7A3).difference hangulOpen)]

end SchemaAlgebra.Unicode
