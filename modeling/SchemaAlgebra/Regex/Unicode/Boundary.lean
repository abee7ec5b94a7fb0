-- SUMMARY: The classes of characters by which text is divided into words and sentences.
import SchemaAlgebra.Regex.Unicode.Case
import SchemaAlgebra.Regex.Unicode.Grapheme
import SchemaAlgebra.Regex.Unicode.Identifier
import SchemaAlgebra.Regex.Unicode.Ideograph
import SchemaAlgebra.Regex.Unicode.Script
import SchemaAlgebra.Regex.Unicode.Symbol

/-!
# Words and sentences

Text is divided at places that depend on the classes of the characters around
them. A character that is listed in none has no influence.
-/

namespace SchemaAlgebra.Unicode

/-- Letters of scripts that are written without marks between words. -/
def complexContext : CharSet := .ofTable [
  "E01-E30 E32-E33 E40-E46 E81-E82 E84 E86-E8A E8C-EA3 EA5 EA7-EB0 EB2-EB3 EBD EC0-EC4 EC6",
  "EDC-EDF 1000-102A 103F 1050-1055 105A-105D 1061 1065-1066 106E-1070 1075-1081 108E 1780-17B3",
  "17D7 17DC 1950-196D 1970-1974 1980-19AB 19B0-19C9 1A20-1A54 1AA7 A9E0-A9E4 A9E6-A9EF",
  "A9FA-A9FE AA60-AA76 AA7A AA7E-AAAF AAB1 AAB5-AAB6 AAB9-AABD AAC0 AAC2 AADB-AADD 11700-1171A",
  "11740-11746"]

/-- Signs that are treated like letters inside words. -/
def otherWordLetter : CharSet := .ofTable [
  "2C2-2C5 2D2-2D7 2DE-2DF 2E5-2EB 2ED 2EF-2FF 55A-55C 55E 58A 5F3 70F A708-A716 A720-A721",
  "A789-A78A AB5B"]

def katakanaLetter : CharSet :=
  (ownScript "katakana").union (.ofTable ["3031-3035 309B-309C 30A0 30FC FF70"])

def hebrewLetter : CharSet := (ownScript "hebrew").intersection otherLetter

/-- Marks that enclose numbers count as part of them. -/
def numberMark : CharSet := prependedConcatenationMark.difference (.single 0x70F)

def extendNumLet : CharSet := .ofTable ["5F 202F 203F-2040 2054 FE33-FE34 FE4D-FE4F FF3F"]

/-- The classes of characters by which text is divided into words. -/
def wordBreaks : CharSet.Catalogue :=
  let joiner := CharSet.single 0x200D
  let extend := (CharSet.unions [graphemeExtend, spacingMark, emojiModifier]).difference joiner
  let plainLetter := alphabetic.difference
    (.unions [ideographic, katakanaLetter, ownScript "hiragana", extend, hebrewLetter, complexContext])
  [(["aletter", "le"], plainLetter.union otherWordLetter), (["cr"], .single 13), (["lf"], .single 10),
   (["doublequote", "dq"], .single 34), (["singlequote", "sq"], .single 39), (["extend"], extend),
   (["extendnumlet", "ex"], extendNumLet),
   (["format", "fo"], format.difference (.unions [.ofTable ["200B-200D"], extend, prependedConcatenationMark])),
   (["hebrewletter", "hl"], hebrewLetter), (["katakana", "ka"], katakanaLetter),
   (["midletter", "ml"], midLetter), (["midnumlet", "mb"], midNumLet),
   (["midnum", "mn"], .ofTable ["2C 3B 37E 589 60C-60D 66C 7F8 2044 FE10 FE14 FE50 FE54 FF0C FF1B"]),
   (["newline", "nl"], .ofTable ["B-C 85 2028-2029"]),
   (["numeric", "nu"], .unions [decimalNumber, .single 0x66B, numberMark]),
   (["regionalindicator", "ri"], regionalIndicator),
   (["wsegspace"], .ofTable ["20 1680 2000-2006 2008-200A 205F 3000"]), (["zwj"], joiner)]

/-- The classes of characters by which text is divided into sentences. -/
def sentenceBreaks : CharSet.Catalogue :=
  let extend := CharSet.unions [graphemeExtend, spacingMark, .single 0x200D]
  let separator := CharSet.ofTable ["85 2028-2029"]
  let stop := CharSet.ofTable ["2E 2024 FE52 FF0E"]
  let lower := lowercase.difference (graphemeExtend.union (.ofTable ["10D0-10FA 10FD-10FF"]))
  let upper := (titlecaseLetter.union uppercase).difference (.ofTable ["1C90-1CBA 1CBD-1CBF"])
  [(["aterm", "at"], stop), (["cr"], .single 13), (["lf"], .single 10),
   (["close", "cl"], .unions [
     openPunctuation, closePunctuation, initialPunctuation, finalPunctuation,
     .ofTable ["22 27 275B-2760 2E00-2E01 2E06-2E08 2E0B 1F676-1F678"]]),
   (["extend", "ex"], extend),
   (["format", "fo"], format.difference (.unions [.ofTable ["200C-200D"], extend, numberMark])),
   (["lower", "lo"], lower), (["upper", "up"], upper),
   (["oletter", "le"], (alphabetic.union (.single 0x5F3)).difference (.unions [lower, upper, extend])),
   (["numeric", "nu"], .unions [decimalNumber, .range 0x66B 0x66C, numberMark]),
   (["scontinue", "sc"], .ofTable [
     "2C-2D 3A-3B 37E 55D 60C-60D 7F8 1802 1808 2013-2014 3001 FE10-FE11 FE13-FE14 FE31-FE32",
     "FE50-FE51 FE54-FE55 FE58 FE63 FF0C-FF0D FF1A-FF1B FF64"]),
   (["sterm", "st"], sentenceTerminal.difference stop), (["sep", "se"], separator),
   (["sp"], whiteSpace.difference (.unions [separator, .single 13, .single 10]))]

end SchemaAlgebra.Unicode
