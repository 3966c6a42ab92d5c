import Canopen.Text.WidthTable
/-!
# Column widths

The number of columns that a text takes where every letter has the same width. Characters of the
East Asian scripts and pictures take two columns, marks and invisible characters none. A sequence
that is shown as one sign, such as a flag, a family or an Arabic ligature, takes the columns of that
sign. Its characters are told from what follows them, so a text is measured from its end.
-/
namespace Canopen.Text

/-- What the text behind a character begins with that a character in front can join. -/
inductive Joint where
  | apart
  | lineEnd
  | picture
  /-- A skin tone, which colours the picture in front. -/
  | skinTone
  | flagLetter
  | flagLetters
  /-- A joiner in front of a picture. -/
  | joinedPicture
  /-- The frame of a key in front of a joined picture. -/
  | joinedKeycap
  /-- A number of flag letters in front of a joined picture. -/
  | joinedFlag (isEven isFirst : Bool)
  /-- The end of a flag's tags in front of a joined picture. -/
  | tagEnd
  /-- So many tag letters in front of the end. -/
  | tagLetters (count : Nat)
  /-- So many tag digits in front of the end or of letters. -/
  | tagDigits (count : Nat)
  | alef
  | lamed (isJoined : Bool)
  | buginese (isJoined : Bool)
  /-- A Buginese vowel in front of a joined letter. -/
  | bugineseVowel
  | tifinagh (isJoined : Bool)
  /-- The mark of a double consonant in front of a consonant. -/
  | tifinaghPair
  | lisuTone
  | orkhon (isJoined : Bool)
  /-- A Khmer letter that can stand below another. -/
  | khmer
  deriving DecidableEq, Repr

/-- What comes behind a character: what it can join, and the selectors in between. -/
structure Behind where
  joint : Joint := .apart
  asPicture : Bool := false
  asText : Bool := false
  deriving DecidableEq, Repr

def isFlagLetter (n : Nat) : Bool := 0x1F1E6 ≤ n && n ≤ 0x1F1FF

def isSkinTone (n : Nat) : Bool := 0x1F3FB ≤ n && n ≤ 0x1F3FF

def isTagLetter (n : Nat) : Bool := 0xE0061 ≤ n && n ≤ 0xE007A

def isTagDigit (n : Nat) : Bool := 0xE0030 ≤ n && n ≤ 0xE0039

def isJoiner (n : Nat) : Bool := n = 0x200D

def isAlef (n : Nat) : Bool :=
  isWithin [(0x622, 0x623), (0x625, 0x625), (0x627, 0x627), (0x671, 0x673), (0x675, 0x675),
    (0x773, 0x774), (0x870, 0x882)] n

def isLam (n : Nat) : Bool :=
  isWithin [(0x644, 0x644), (0x6B5, 0x6B8), (0x76A, 0x76A), (0x8A6, 0x8A6), (0x8C7, 0x8C7)] n

/-- Holds of the Khmer letters that have a form below another letter. -/
def isKhmerLetter (n : Nat) : Bool :=
  isWithin [(0x1780, 0x1782), (0x1784, 0x1787), (0x1789, 0x178C), (0x178E, 0x1793),
    (0x1795, 0x1798), (0x179B, 0x179D), (0x17A0, 0x17A0), (0x17A2, 0x17A2), (0x17A7, 0x17A7),
    (0x17AB, 0x17AC), (0x17AF, 0x17AF)] n

def isTifinagh (n : Nat) : Bool := isWithin [(0x2D31, 0x2D65), (0x2D6F, 0x2D6F)] n

/-- Holds of the characters that a selector can make a picture. -/
def isSelectable (n : Nat) : Bool := isWithin selectableRanges n

/-- Holds of the pictures that a selector can make a text of one column. The signs that enclose an
ideograph stay wide. -/
def isNarrowable (n : Nat) : Bool :=
  isSelectable n && isWithin emojiRanges n && !(0x1F200 ≤ n && n ≤ 0x1F2FF)

/-- Holds of the marks that letters on both sides of them are joined across. -/
def isTransparent (n : Nat) : Bool := isWithin emptyRanges n && !isWithin partingRanges n

/-- The columns of a character on its own. A control character takes one, as it is shown by a sign
of its own. -/
def columns (n : Nat) : Nat :=
  if n ≤ 0xA0 then 1
  else if n = 0x17D8 then 3
  else if n = 0x17A4 then 2
  else if isWithin emptyRanges n then 0
  else if isWithin wideRanges n then 2
  else 1

def Joint.ofChar (n : Nat) : Joint :=
  if n = 0x5DC then .lamed false
  else if isAlef n then .alef
  else if isKhmerLetter n then .khmer
  else if n = 0x1A10 then .buginese false
  else if isTifinagh n then .tifinagh false
  else if n = 0xA4FC || n = 0xA4FD then .lisuTone
  else if n = 0x10C03 then .orkhon false
  else if isFlagLetter n then .flagLetter
  else if isSkinTone n then .skinTone
  else if isWithin emojiRanges n then .picture
  else .apart

namespace Joint

def isLetter : Joint → Bool
  | alef | lamed _ | buginese _ | bugineseVowel | tifinagh _ | tifinaghPair | lisuTone | orkhon _
  | khmer => true
  | _ => false

/-- Holds of the joints of a picture that is joined to what stands in front. -/
def isJoinedPicture : Joint → Bool
  | joinedPicture | joinedKeycap => true
  | _ => false

/-- The joint of a letter with a joiner in front. -/
def joined : Joint → Joint
  | lamed _ => lamed true
  | buginese _ => buginese true
  | tifinagh _ => tifinagh true
  | orkhon _ => orkhon true
  | j => j

/-- How a character joins letters behind it: the columns it adds, and what can join it in turn. -/
def addLetter? (j : Joint) (n : Nat) : Option (Int × Joint) :=
  match j with
  | alef =>
    if isLam n then some (0, apart) else if isTransparent n then some (0, alef) else none
  | lamed true => if n = 0x5D0 then some (0, apart) else none
  | khmer => if n = 0x17D2 then some (-1, apart) else none
  | buginese true => if n = 0x1A17 then some (0, bugineseVowel) else none
  | bugineseVowel => if n = 0x1A15 then some (0, apart) else none
  | tifinagh isJoined =>
    if n = 0x2D7F then some (1, tifinaghPair)
    else if isJoined && isTifinagh n then some (0, apart) else none
  | tifinaghPair => if isTifinagh n then some (-1, apart) else none
  | lisuTone => if 0xA4F8 ≤ n && n ≤ 0xA4FB then some (0, apart) else none
  | orkhon true => if n = 0x10C32 then some (0, apart) else none
  | _ => none

/-- How a character joins pictures behind it. -/
def addPicture? (j : Joint) (n : Nat) : Option (Int × Joint) :=
  let joining : Option (Int × Joint) := if isJoiner n then some (0, joinedPicture) else none
  let flagBase : Option (Int × Joint) := if n = 0x1F3F4 then some (0, picture) else none
  match j with
  | skinTone => if isWithin skinRanges n then some (0, picture) else joining
  | flagLetter => if isFlagLetter n then some (1, flagLetters) else none
  | flagLetters => if isFlagLetter n then some (1, flagLetters) else joining
  | picture => joining
  | joinedPicture =>
    if n = 0x20E3 then some (0, joinedKeycap)
    else if isFlagLetter n then some (1, joinedFlag false true)
    else if isSkinTone n then some (0, skinTone)
    else if n = 0xE007F then some (0, tagEnd)
    else if isWithin emojiRanges n then some (0, picture)
    else none
  | joinedFlag isEven isFirst =>
    if isFlagLetter n then some (if isEven then 3 else -1, joinedFlag (!isEven) false)
    else if isFirst then none else joining
  | tagEnd =>
    if isTagLetter n then some (0, tagLetters 1)
    else if isTagDigit n then some (0, tagDigits 1) else none
  | tagLetters count =>
    if isTagLetter n && count < 6 then some (0, tagLetters (count + 1))
    else if isTagDigit n && count ≤ 4 then some (0, tagDigits 1)
    else if 3 ≤ count then flagBase else none
  | tagDigits count =>
    if isTagDigit n && count < 3 then some (0, tagDigits (count + 1))
    else if count = 3 then flagBase else none
  | _ => none

/-- How a character joins what is behind it. Hidden marks and joiners do not part letters; Arabic
letters are parted by joiners. -/
def add? (j : Joint) (n : Nat) : Option (Int × Joint) :=
  if j.isLetter then
    if j ≠ alef && isJoiner n then some (0, j.joined)
    else if j ≠ alef && isWithin hiddenMarkRanges n then some (0, j)
    else j.addLetter? n
  else j.addPicture? n

end Joint

namespace Behind

/-- What is behind a selector of pictures. -/
def selectPicture (b : Behind) : Behind :=
  if b.joint.isLetter then { b with asPicture := true }
  else if b.joint.isJoinedPicture then { joint := b.joint, asPicture := true }
  else { asPicture := true }

/-- What is behind a selector of texts. -/
def selectText (b : Behind) : Behind :=
  if b.joint.isLetter then { b with asText := true } else { asText := true }

/-- What is behind a character that a selector of pictures says nothing of. -/
def dropPicture (b : Behind) : Behind :=
  if !b.asPicture then b else if b.joint.isLetter then { b with asPicture := false } else {}

/-- The columns that a character adds in front of what is behind it, and what is then behind the
character before it. -/
def add (b : Behind) (n : Nat) : Int × Behind :=
  if b.asPicture && isSelectable n then
    (if b.joint.isJoinedPicture then 0 else 2, { joint := .picture })
  else
    let b := b.dropPicture
    if n = 0x0A then (1, { joint := .lineEnd })
    else if n = 0x0D && b.joint = .lineEnd then (0, {})
    else if n ≤ 0xA0 then (1, {})
    else if n = 0xFE0F then (0, b.selectPicture)
    else if n = 0xFE0E then (0, b.selectText)
    else if b.asText && isNarrowable n then (1, {})
    else
      match b.joint.add? n with
      | some (width, joint) => (width, { joint })
      | none => (columns n, { joint := .ofChar n })

end Behind

/-- Measures a text from its end. -/
def measure (cs : List Char) : Int × Behind :=
  cs.foldr (fun c m => let (width, b) := m.2.add c.toNat; (width + m.1, b)) (0, {})

def lineWidth (cs : List Char) : Nat := (measure cs).1.toNat

end Canopen.Text
