import Nesting.Text.CharSet
import Nesting.Text.PropertyTable
import Nesting.Text.ScriptTable

/-! # Properties of characters by name

`CharProperty.named?` is the set that the name of a property stands for: a general category, a
script, or a property that a character has or has not.  `CharProperty.valued?` takes the name of
the property and that of its value apart.  Names are compared loosely (`CharProperty.looseName`).

Known are the general categories, the scripts, and the properties that `CharProperty.binary` lists.
All others have no table here, so their names are not known: ages, breaks, extended scripts, what
changes of case do to a character, and the finer kinds of marks, signs and pictures. -/

namespace Nesting.CharProperty

/-! ### Names -/

/-- What a name is compared by: its letters in small form, without blanks, dashes, underscores and
an `is` in front.  The name of comments, `isc`, is not that of the category `c`. -/
def looseName (name : List Char) : List Char :=
  let (isPrefixed, cs) := match name with
    | c :: d :: cs => if c.toLower = 'i' && d.toLower = 's' then (true, cs) else (false, name)
    | _ => (false, name)
  let cs := cs.filter fun c => c.toNat < 0x80 && c != ' ' && c != '_' && c != '-'
  let cs := cs.map Char.toLower
  if isPrefixed && cs = ['c'] then ['i', 's', 'c'] else cs

/-- The entry of a table that has a name. -/
def lookup? {α : Type} (table : List (List String × α)) (name : List Char) : Option α :=
  (table.find? fun e => e.1.any fun other => looseName other.toList = looseName name).map (·.2)

/-! ### Sets -/

/-- The code points of a run `(first, last, step)`. -/
def rangesOfRun : Nat × Nat × Nat → List (Nat × Nat)
  | (first, last, step) =>
    if step = 1 then [(first, last)]
    else (List.range ((last - first) / step + 1)).map fun i =>
      (first + i * step, first + i * step)

/-- The set of all code points in some tables. -/
def ofTables (tables : List (List (Nat × Nat))) : CharSet :=
  let ranges := tables.flatten.mergeSort fun r s => decide (r.1 ≤ s.1)
  ⟨ranges.foldr (fun r rest => CharSet.withRange r.1 r.2 rest) []⟩

open CharTable

def uppercaseLetters : List (Nat × Nat) := uppercaseRuns.flatMap rangesOfRun

def lowercaseLetters : List (Nat × Nat) := lowercaseRuns.flatMap rangesOfRun

def casedLetters : List (List (Nat × Nat)) := [uppercaseLetters, lowercaseLetters, titlecaseLetters]

def letters : List (List (Nat × Nat)) := casedLetters ++ [modifierLetters, otherLetters]

def marks : List (List (Nat × Nat)) := [nonspacingMarks, spacingMarks, enclosingMarks]

def allNumbers : List (List (Nat × Nat)) := [digits, letterNumbers, numbers]

def punctuation : List (List (Nat × Nat)) :=
  [connectors, dashes, openings, closings, initialQuotes, finalQuotes, otherPunctuation]

def symbols : List (List (Nat × Nat)) :=
  [mathSymbols, currencySymbols, modifierSymbols, otherSymbols]

def separators : List (List (Nat × Nat)) :=
  [spaceSeparators, lineSeparators, paragraphSeparators]

/-- The code points that have no other category.  Surrogates have one of their own, but are no
characters. -/
def unassigned : CharSet :=
  (ofTables (letters ++ marks ++ allNumbers ++ punctuation ++ symbols ++ separators ++
    [controls, formats, privateUse, [(0xd800, 0xdfff)]])).compl

def cased : List (List (Nat × Nat)) := casedLetters ++ [otherUppercase, otherLowercase]

/-- What a name begins with. -/
def idStart : CharSet :=
  (ofTables (letters ++ [letterNumbers, otherIdStart])).diff ⟨patternSyntax⟩

/-- What a name goes on with. -/
def idContinue : CharSet :=
  ofTables [idStart.ranges, digits, nonspacingMarks, spacingMarks, connectors, otherIdContinue]

/-! ### Tables -/

/-- The general categories and groups of them. -/
def categories : List (List String × CharSet) := [
  (["Any"], .any), (["Assigned"], unassigned.compl), (["ASCII"], .range '\x00' '\x7f'),
  (["L", "Letter"], ofTables letters), (["LC", "Cased_Letter"], ofTables casedLetters),
  (["Lu", "Uppercase_Letter"], ⟨uppercaseLetters⟩),
  (["Ll", "Lowercase_Letter"], ⟨lowercaseLetters⟩),
  (["Lt", "Titlecase_Letter"], ⟨titlecaseLetters⟩), (["Lm", "Modifier_Letter"], ⟨modifierLetters⟩),
  (["Lo", "Other_Letter"], ⟨otherLetters⟩),
  (["M", "Mark", "Combining_Mark"], ofTables marks), (["Mn", "Nonspacing_Mark"], ⟨nonspacingMarks⟩),
  (["Mc", "Spacing_Mark"], ⟨spacingMarks⟩), (["Me", "Enclosing_Mark"], ⟨enclosingMarks⟩),
  (["N", "Number"], ofTables allNumbers), (["Nd", "Decimal_Number", "digit"], .digit),
  (["Nl", "Letter_Number"], ⟨letterNumbers⟩), (["No", "Other_Number"], ⟨numbers⟩),
  (["P", "Punctuation", "punct"], ofTables punctuation),
  (["Pc", "Connector_Punctuation"], ⟨connectors⟩), (["Pd", "Dash_Punctuation"], ⟨dashes⟩),
  (["Ps", "Open_Punctuation"], ⟨openings⟩), (["Pe", "Close_Punctuation"], ⟨closings⟩),
  (["Pi", "Initial_Punctuation"], ⟨initialQuotes⟩), (["Pf", "Final_Punctuation"], ⟨finalQuotes⟩),
  (["Po", "Other_Punctuation"], ⟨otherPunctuation⟩),
  (["S", "Symbol"], ofTables symbols), (["Sm", "Math_Symbol"], ⟨mathSymbols⟩),
  (["Sc", "Currency_Symbol"], ⟨currencySymbols⟩), (["Sk", "Modifier_Symbol"], ⟨modifierSymbols⟩),
  (["So", "Other_Symbol"], ⟨otherSymbols⟩),
  (["Z", "Separator"], ofTables separators), (["Zs", "Space_Separator"], ⟨spaceSeparators⟩),
  (["Zl", "Line_Separator"], ⟨lineSeparators⟩),
  (["Zp", "Paragraph_Separator"], ⟨paragraphSeparators⟩),
  (["C", "Other"], ofTables [controls, formats, privateUse, unassigned.ranges]),
  (["Cc", "Control", "cntrl"], ⟨controls⟩), (["Cf", "Format"], ⟨formats⟩),
  (["Cn", "Unassigned"], unassigned), (["Co", "Private_Use"], ⟨privateUse⟩)]

/-- The properties that a character has or has not. -/
def binary : List (List String × CharSet) := [
  (["Alpha", "Alphabetic"], ofTables (letters ++ cased ++ [letterNumbers, otherAlphabetic])),
  (["Cased"], ofTables cased),
  (["Lower", "Lowercase"], ofTables [lowercaseLetters, otherLowercase]),
  (["Upper", "Uppercase"], ofTables [uppercaseLetters, otherUppercase]),
  (["WSpace", "White_Space", "space"], .space), (["Math"], ofTables [mathSymbols, otherMath]),
  (["IDS", "ID_Start"], idStart), (["IDC", "ID_Continue"], idContinue),
  (["XIDS", "XID_Start"], idStart.diff ⟨unstableIdStart⟩),
  (["XIDC", "XID_Continue"], idContinue.diff ⟨unstableIdContinue⟩),
  (["AHex", "ASCII_Hex_Digit"], ⟨asciiHexDigits⟩), (["Hex", "Hex_Digit"], ⟨hexDigits⟩),
  (["Bidi_C", "Bidi_Control"], ⟨bidiControls⟩), (["Dash"], ⟨dashLike⟩),
  (["DI", "Default_Ignorable_Code_Point"], ⟨ignorables⟩), (["Dep", "Deprecated"], ⟨outdated⟩),
  (["Emoji"], ⟨emoji⟩), (["EComp", "Emoji_Component"], ⟨emojiComponents⟩),
  (["EMod", "Emoji_Modifier"], ⟨emojiModifiers⟩), (["EBase", "Emoji_Modifier_Base"], ⟨emojiBases⟩),
  (["EPres", "Emoji_Presentation"], ⟨emojiPresentation⟩), (["Ideo", "Ideographic"], ⟨ideographs⟩),
  (["Join_C", "Join_Control"], ⟨joiners⟩), (["LOE", "Logical_Order_Exception"], ⟨visualOrder⟩),
  (["NChar", "Noncharacter_Code_Point"], ⟨noncharacters⟩),
  (["Pat_Syn", "Pattern_Syntax"], ⟨patternSyntax⟩),
  (["Pat_WS", "Pattern_White_Space"], ⟨patternSpaces⟩),
  (["QMark", "Quotation_Mark"], ⟨quotationMarks⟩), (["Radical"], ⟨radicals⟩),
  (["RI", "Regional_Indicator"], ⟨regionalIndicators⟩), (["SD", "Soft_Dotted"], ⟨softDotted⟩),
  (["UIdeo", "Unified_Ideograph"], ⟨unifiedIdeographs⟩),
  (["VS", "Variation_Selector"], ⟨variationSelectors⟩)]

def script? (name : List Char) : Option CharSet := (lookup? scripts name).map CharSet.mk

/-- The set of a property that a character has or has not, of a category or of a script. -/
def named? (name : List Char) : Option CharSet :=
  lookup? binary name <|> lookup? categories name <|> script? name

/-- The set of the characters whose property has a value. -/
def valued? (name value : List Char) : Option CharSet :=
  if ["gc", "generalcategory"].any (looseName name = ·.toList) then lookup? categories value
  else if ["sc", "script"].any (looseName name = ·.toList) then script? value
  else none

end Nesting.CharProperty
