import CodeAtlas.Pattern.CodeSet
import CodeAtlas.Text.Category
import CodeAtlas.Text.Chars
import CodeAtlas.Text.Script

/-!
# Properties by name

A pattern can ask for the characters of a Unicode property: a general category, a script, or one of
a few truth-valued properties. Names are compared loosely, in any letter case and without blanks,
hyphens, underscores and a leading `is`. A category or a script can also be given as the value of a
property.
-/

namespace CodeAtlas.CodeSet

/-- The code points of a table. -/
def ofTable (ranges : Text.Ranges) : CodeSet :=
  .listed ranges.toRuns

/-! ## Categories -/

/-- The code points with the property `Alphabetic`. -/
def alphabetic : CodeSet :=
  .union (.ofRanges [('A', 'Z'), ('a', 'z')]) (ofTable Text.alphabeticRanges)

/-- The letters: what is alphabetic and neither a number nor a vowel sign. -/
def letter : CodeSet :=
  .difference alphabetic
    (.union (ofTable Text.letterNumberRanges) (ofTable Text.alphabeticMarkRanges))

/-- The letters that have a case. -/
def casedLetter : CodeSet :=
  .unionAll [.listed Text.uppercaseLetterRuns, .listed Text.lowercaseLetterRuns,
    ofTable Text.titlecaseLetterRanges]

/-- The letters of no other kind. -/
def otherLetter : CodeSet :=
  .difference letter (.union casedLetter (ofTable Text.modifierLetterRanges))

/-- The code points that are symbols of no other kind. -/
def otherSymbol : CodeSet :=
  ofTable Text.otherSymbolRanges

/-- The marks: combining signs that are alphabetic or not. Enclosed letters are symbols. -/
def mark : CodeSet :=
  .union (ofTable Text.otherMarkRanges)
    (.difference (ofTable Text.alphabeticMarkRanges) otherSymbol)

/-- The marks that take up no space. -/
def nonspacingMark : CodeSet :=
  .difference mark (.union (ofTable Text.spacingMarkRanges) (ofTable Text.enclosingMarkRanges))

/-- The numbers of no other kind. -/
def otherNumber : CodeSet :=
  ofTable Text.otherNumberRanges

/-- The numbers. -/
def number : CodeSet :=
  .unionAll [.digit, ofTable Text.letterNumberRanges, otherNumber]

/-- The punctuation that connects words. -/
def connector : CodeSet :=
  .union (.single '_'.toNat) (ofTable Text.connectorRanges)

/-- The punctuation. -/
def punctuation : CodeSet :=
  .unionAll [connector, ofTable Text.dashRanges, ofTable Text.openingRanges,
    ofTable Text.closingRanges, ofTable Text.initialQuoteRanges, ofTable Text.finalQuoteRanges,
    ofTable Text.otherPunctuationRanges]

/-- The symbols. -/
def symbol : CodeSet :=
  .unionAll [ofTable Text.mathSymbolRanges, ofTable Text.currencyRanges,
    ofTable Text.modifierSymbolRanges, otherSymbol]

/-- The character that separates lines. -/
def lineSeparator : CodeSet :=
  .single 0x2028

/-- The character that separates paragraphs. -/
def paragraphSeparator : CodeSet :=
  .single 0x2029

/-- The separators. -/
def separator : CodeSet :=
  .unionAll [ofTable Text.spaceSeparatorRanges, lineSeparator, paragraphSeparator]

/-- The control characters. -/
def control : CodeSet :=
  .union (.range 0 0x1f) (.range 0x7f 0x9f)

/-- What is neither letter, mark, number, punctuation, symbol nor separator. -/
def other : CodeSet :=
  .complement (.unionAll [letter, mark, number, punctuation, symbol, separator])

/-- The code points that stand for no character. -/
def unassigned : CodeSet :=
  .difference other
    (.unionAll [control, ofTable Text.formatRanges, ofTable Text.privateUseRanges])

/-- The general category of a name in loose form. -/
def category? : String → Option CodeSet
  | "any" => some .all
  | "ascii" => some .ascii
  | "assigned" => some (.complement unassigned)
  | "l" | "letter" => some letter
  | "lc" | "casedletter" => some casedLetter
  | "lu" | "uppercaseletter" => some (.listed Text.uppercaseLetterRuns)
  | "ll" | "lowercaseletter" => some (.listed Text.lowercaseLetterRuns)
  | "lt" | "titlecaseletter" => some (ofTable Text.titlecaseLetterRanges)
  | "lm" | "modifierletter" => some (ofTable Text.modifierLetterRanges)
  | "lo" | "otherletter" => some otherLetter
  | "m" | "mark" | "combiningmark" => some mark
  | "mn" | "nonspacingmark" => some nonspacingMark
  | "mc" | "spacingmark" => some (ofTable Text.spacingMarkRanges)
  | "me" | "enclosingmark" => some (ofTable Text.enclosingMarkRanges)
  | "n" | "number" => some number
  | "nd" | "decimalnumber" | "digit" => some .digit
  | "nl" | "letternumber" => some (ofTable Text.letterNumberRanges)
  | "no" | "othernumber" => some otherNumber
  | "p" | "punctuation" | "punct" => some punctuation
  | "pc" | "connectorpunctuation" => some connector
  | "pd" | "dashpunctuation" => some (ofTable Text.dashRanges)
  | "ps" | "openpunctuation" => some (ofTable Text.openingRanges)
  | "pe" | "closepunctuation" => some (ofTable Text.closingRanges)
  | "pi" | "initialpunctuation" => some (ofTable Text.initialQuoteRanges)
  | "pf" | "finalpunctuation" => some (ofTable Text.finalQuoteRanges)
  | "po" | "otherpunctuation" => some (ofTable Text.otherPunctuationRanges)
  | "s" | "symbol" => some symbol
  | "sm" | "mathsymbol" => some (ofTable Text.mathSymbolRanges)
  | "sc" | "currencysymbol" => some (ofTable Text.currencyRanges)
  | "sk" | "modifiersymbol" => some (ofTable Text.modifierSymbolRanges)
  | "so" | "othersymbol" => some otherSymbol
  | "z" | "separator" => some separator
  | "zs" | "spaceseparator" => some (ofTable Text.spaceSeparatorRanges)
  | "zl" | "lineseparator" => some lineSeparator
  | "zp" | "paragraphseparator" => some paragraphSeparator
  | "c" | "other" => some other
  | "cc" | "control" | "cntrl" => some control
  | "cf" | "format" => some (ofTable Text.formatRanges)
  | "cn" | "unassigned" => some unassigned
  | "co" | "privateuse" => some (ofTable Text.privateUseRanges)
  | "cs" | "surrogate" => some .none
  | _ => Option.none

/-! ## Scripts and truth values -/

/-- The script of a name in loose form. -/
def script? : String → Option CodeSet
  | "latin" | "latn" => some (ofTable Text.latinRanges)
  | "greek" | "grek" => some (ofTable Text.greekRanges)
  | "cyrillic" | "cyrl" => some (ofTable Text.cyrillicRanges)
  | "armenian" | "armn" => some (ofTable Text.armenianRanges)
  | "hebrew" | "hebr" => some (ofTable Text.hebrewRanges)
  | "arabic" | "arab" => some (ofTable Text.arabicRanges)
  | "devanagari" | "deva" => some (ofTable Text.devanagariRanges)
  | "thai" => some (ofTable Text.thaiRanges)
  | "hangul" | "hang" => some (ofTable Text.hangulRanges)
  | "hiragana" | "hira" => some (ofTable Text.hiraganaRanges)
  | "katakana" | "kana" => some (ofTable Text.katakanaRanges)
  | "han" | "hani" => some (ofTable Text.hanRanges)
  | _ => Option.none

/-- The truth-valued property of a name in loose form. -/
def truthProperty? : String → Option CodeSet
  | "alphabetic" | "alpha" => some alphabetic
  | "uppercase" | "upper" =>
    some (.union (.listed Text.uppercaseLetterRuns) (ofTable Text.otherUppercaseRanges))
  | "lowercase" | "lower" =>
    some (.union (.listed Text.lowercaseLetterRuns) (ofTable Text.otherLowercaseRanges))
  | "whitespace" | "wspace" | "space" => some .blank
  | _ => Option.none

/-! ## Names -/

/-- The name without a leading `is`. -/
def dropIs : List Char → List Char
  | first :: second :: rest =>
    if first.toLower = 'i' ∧ second.toLower = 's' then rest else first :: second :: rest
  | cs => cs

/-- The loose form of a name. -/
def looseName (name : List Char) : String :=
  let kept := (dropIs name).filter fun c =>
    decide (c.toNat < 0x80) && c != ' ' && c != '_' && c != '-'
  String.ofList (kept.map Char.toLower)

/-- The set of a property that is named alone: a truth-valued property, a category or a script. -/
def property? (name : List Char) : Option CodeSet :=
  let loose := looseName name
  (truthProperty? loose).or ((category? loose).or (script? loose))

/-- The set of the characters for which a property has a value. -/
def propertyValue? (name value : List Char) : Option CodeSet :=
  match looseName name with
  | "generalcategory" | "gc" => category? (looseName value)
  | "script" | "sc" => script? (looseName value)
  | _ => Option.none

end CodeAtlas.CodeSet
