-- SUMMARY: The properties that a pattern can name, and the sets they stand for.
import SchemaAlgebra.Regex.Unicode.Age
import SchemaAlgebra.Regex.Unicode.Boundary

/-!
# Properties

The sets of characters that `\p` classes stand for. Names are compared without
regard to case, blanks, hyphens, underscores and a leading `is`.
-/

namespace SchemaAlgebra.Unicode.Property

/-- A name reduced to what is compared. -/
def normalizeName (name : String) : String :=
  let cs := name.toList
  let (dropped, cs) := match cs with
    | i :: s :: rest => if (i = 'i' ∨ i = 'I') ∧ (s = 's' ∨ s = 'S') then (true, rest) else (false, cs)
    | _ => (false, cs)
  let kept := (cs.filter fun c => c != ' ' && c != '_' && c != '-' && c.toNat < 128).map Char.toLower
  -- `isc` is a name of its own
  if dropped ∧ kept = ['c'] then "isc" else String.ofList kept

/-- The properties that a character has or has not. -/
def binary : CharSet.Catalogue := [
  (["alpha", "alphabetic"], alphabetic), (["oalpha", "otheralphabetic"], otherAlphabetic),
  (["lower", "lowercase"], lowercase), (["olower", "otherlowercase"], otherLowercase),
  (["upper", "uppercase"], uppercase), (["oupper", "otheruppercase"], otherUppercase),
  (["cased"], cased), (["ci", "caseignorable"], caseIgnorable), (["sd", "softdotted"], softDotted),
  (["cwl", "changeswhenlowercased"], changesWhenLowercased),
  (["cwu", "changeswhenuppercased"], changesWhenUppercased),
  (["cwt", "changeswhentitlecased"], changesWhenTitlecased),
  (["cwcf", "changeswhencasefolded"], changesWhenCasefolded),
  (["cwcm", "changeswhencasemapped"], changesWhenCasemapped),
  (["ids", "idstart"], idStart), (["oids", "otheridstart"], otherIdStart), (["xids", "xidstart"], xidStart),
  (["idc", "idcontinue"], idContinue), (["oidc", "otheridcontinue"], otherIdContinue),
  (["xidc", "xidcontinue"], xidContinue),
  (["idcompatmathstart"], idCompatMathStart), (["idcompatmathcontinue"], idCompatMathContinue),
  (["patsyn", "patternsyntax"], patternSyntax), (["patws", "patternwhitespace"], patternWhiteSpace),
  (["space", "wspace", "whitespace"], whiteSpace), (["bidic", "bidicontrol"], bidiControl),
  (["bidim", "bidimirrored"], bidiMirrored), (["joinc", "joincontrol"], joinControl),
  (["vs", "variationselector"], variationSelector), (["dep", "deprecated"], deprecated),
  (["pcm", "prependedconcatenationmark"], prependedConcatenationMark),
  (["mcm", "modifiercombiningmark"], modifierCombiningMark),
  (["di", "defaultignorablecodepoint"], defaultIgnorable),
  (["odi", "otherdefaultignorablecodepoint"], otherDefaultIgnorable),
  (["nchar", "noncharactercodepoint"], noncharacter), (["loe", "logicalorderexception"], logicalOrderException),
  (["grbase", "graphemebase"], graphemeBase), (["grext", "graphemeextend"], graphemeExtend),
  (["ogrext", "othergraphemeextend"], otherGraphemeExtend), (["grlink", "graphemelink"], graphemeLink),
  (["math"], math), (["omath", "othermath"], otherMath), (["dash"], dash), (["hyphen"], hyphen),
  (["qmark", "quotationmark"], quotationMark), (["sterm", "sentenceterminal"], sentenceTerminal),
  (["term", "terminalpunctuation"], terminalPunctuation), (["dia", "diacritic"], diacritic),
  (["ext", "extender"], extender), (["ahex", "asciihexdigit"], asciiHexDigit), (["hex", "hexdigit"], hexDigit),
  (["emoji"], emoji), (["epres", "emojipresentation"], emojiPresentation),
  (["emod", "emojimodifier"], emojiModifier), (["ebase", "emojimodifierbase"], emojiModifierBase),
  (["ecomp", "emojicomponent"], emojiComponent), (["extpict", "extendedpictographic"], extendedPictographic),
  (["ri", "regionalindicator"], regionalIndicator),
  (["ideo", "ideographic"], ideographic), (["uideo", "unifiedideograph"], unifiedIdeograph),
  (["radical"], radical), (["idsu", "idsunaryoperator"], idsUnaryOperator),
  (["idsb", "idsbinaryoperator"], idsBinaryOperator), (["idst", "idstrinaryoperator"], idsTrinaryOperator)]

/-- The properties that have values, by their names. -/
def valued : List (List String × CharSet.Catalogue) := [
  (["gc", "generalcategory"], categories), (["sc", "script"], scripts),
  (["scx", "scriptextensions"], scriptExtensions), (["age"], ages),
  (["gcb", "graphemeclusterbreak"], graphemeBreaks), (["wb", "wordbreak"], wordBreaks),
  (["sb", "sentencebreak"], sentenceBreaks)]

/-- The set of a lone name: that of a binary property, a category or a script, in this order. -/
def ofName? (name : String) : Option CharSet :=
  let find? (catalogue : CharSet.Catalogue) : Option CharSet := catalogue.named? (normalizeName name)
  find? binary <|> find? categories <|> find? scripts

/-- The set of a property with a value. -/
def ofNameAndValue? (name value : String) : Option CharSet :=
  let name := normalizeName name
  (valued.find? fun row => row.1.contains name).bind fun row => CharSet.Catalogue.named? row.2 (normalizeName value)

end SchemaAlgebra.Unicode.Property
