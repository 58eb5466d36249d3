/-
# Decoding bytes

A source file is read through the codec of its encoding (`Codec`).  Which
codecs there are depends on the environment, so a table of them is a parameter
of whatever reads files (`Codecs`).  A codec may find that bytes are no text of
its encoding, which makes the file unreadable; it may also fail with an error
that nobody provides for, and so may the name alone.

Three encodings come with the library: UTF-8, Latin-1 and ASCII
(`Codec.named`).  A byte sequence that is not well-formed is refused at the
first place where it cannot go on, with the bytes that belong together there: a
first byte and the continuation bytes that could follow it.

Line ends are unified after decoding: a carriage return, alone or before a
line feed, becomes a line feed.
-/
import CxxFloor.Text.Alphanumeric
import CxxFloor.Text.Quoted

namespace CxxFloor

/-- What a codec makes of bytes. -/
inductive Decoded where
  | text (cs : List Char)
  /-- The bytes are no text of the encoding. -/
  | unreadable (reason : String)
  /-- The codec fails, with an error of the class. -/
  | fails (className message : String)
deriving DecidableEq, Repr

/-- How the files of an encoding are read. -/
inductive Codec where
  /-- The name of the encoding is refused before any file is opened. -/
  | barred (className message : String)
  | decoder (decode : List UInt8 → Decoded)

abbrev Codecs := String → Codec

/-- The encodings that come with the library. -/
inductive Encoding where
  | utf8
  | latin1
  | ascii
deriving DecidableEq, Repr

namespace Encoding

/-- The name of an encoding in messages. -/
def name : Encoding → String
  | utf8 => "utf-8"
  | latin1 => "latin-1"
  | ascii => "ascii"

/-- The spellings of an encoding's name, in lower case and with underscores between words. -/
def spellings : Encoding → List String
  | utf8 => ["utf_8", "utf8", "u8", "utf", "utf8_ucs2", "utf8_ucs4", "cp65001"]
  | latin1 =>
    ["latin_1", "latin1", "latin", "l1", "8859", "iso8859", "iso8859_1", "iso_8859_1",
     "iso_8859_1_1987", "iso_ir_100", "cp819", "csisolatin1", "ibm819"]
  | ascii =>
    ["ascii", "us_ascii", "us", "646", "ansi_x3.4_1968", "ansi_x3_4_1968", "ansi_x3.4_1986",
     "cp367", "csascii", "ibm367", "iso646_us", "iso_646.irv_1991", "iso_ir_6"]

/-- A name in lower case and with one underscore for all that stands between two words.  `started`
says that something was kept before, and `gap` that a word has ended since. -/
def plainName (started gap : Bool) : List Char → List Char
  | [] => []
  | c :: cs =>
    if Text.isAlphanumeric c || c == '.' then
      let kept := if c.toNat < 0x80 then [c.toLower] else []
      let joint := if gap && started then ['_'] else []
      joint ++ kept ++ plainName (started || !kept.isEmpty) false cs
    else plainName started true cs

/-- The encoding of a name, if the library has it.  Neither case matters nor what stands between
the words. -/
def ofName? (s : String) : Option Encoding :=
  let plain := String.ofList (plainName false false s.toList)
  [utf8, latin1, ascii].find? fun e => e.spellings.contains plain

/-- Why bytes cannot be decoded: the bytes from `start` on and before `stop`. -/
structure Fault where
  encoding : Encoding
  bytes : List UInt8
  start : Nat
  reason : String
deriving DecidableEq, Repr

/-- The wording of a fault. -/
def Fault.message (f : Fault) : String :=
  "'" ++ f.encoding.name ++ "' codec can't decode "
    ++ (match f.bytes with
      | [b] => "byte 0x" ++ String.ofList (Text.hex 2 b.toNat) ++ " in position " ++ toString f.start
      | bytes =>
        "bytes in position " ++ toString f.start ++ "-" ++ toString (f.start + bytes.length - 1))
    ++ ": " ++ f.reason

/-! ## UTF-8 -/

/-- The number of continuation bytes behind a first byte; `none` if it can be no first byte. -/
def tailLength? (b : Nat) : Option Nat :=
  if b < 0x80 then some 0
  else if 0xC2 ≤ b && b ≤ 0xDF then some 1
  else if 0xE0 ≤ b && b ≤ 0xEF then some 2
  else if 0xF0 ≤ b && b ≤ 0xF4 then some 3
  else none

/-- The bytes that may stand `k` bytes behind the first byte.  The second byte keeps out overlong
forms, surrogates and what lies beyond the last code point. -/
def mayFollow (first k b : Nat) : Bool :=
  if k = 1 then
    if first = 0xE0 then 0xA0 ≤ b && b ≤ 0xBF
    else if first = 0xED then 0x80 ≤ b && b ≤ 0x9F
    else if first = 0xF0 then 0x90 ≤ b && b ≤ 0xBF
    else if first = 0xF4 then 0x80 ≤ b && b ≤ 0x8F
    else 0x80 ≤ b && b ≤ 0xBF
  else 0x80 ≤ b && b ≤ 0xBF

/-- The continuation bytes, at most `n`, that stand behind the first byte, counted from the `k`th
on. -/
def tail (first : Nat) : (k n : Nat) → List UInt8 → List UInt8
  | _, 0, _ => []
  | _, _, [] => []
  | k, n + 1, b :: bs => if mayFollow first k b.toNat then b :: tail first (k + 1) n bs else []

/-- The code point of a first byte and its continuation bytes. -/
def codePoint (first : Nat) (tail : List UInt8) : Nat :=
  let lead :=
    match tail.length with
    | 0 => first
    | 1 => first - 0xC0
    | 2 => first - 0xE0
    | _ => first - 0xF0
  tail.foldl (fun n b => n * 64 + (b.toNat - 0x80)) lead

/-- The characters of UTF-8 bytes, the first of which stands at `position`. -/
def decodeUtf8 (position : Nat) : List UInt8 → Except Fault (List Char)
  | [] => .ok []
  | b :: bs =>
    match tailLength? b.toNat with
    | none => .error ⟨utf8, [b], position, "invalid start byte"⟩
    | some n =>
      let read := tail b.toNat 1 n bs
      if read.length = n then
        (decodeUtf8 (position + 1 + n) (bs.drop n)).map (Char.ofNat (codePoint b.toNat read) :: ·)
      else
        .error ⟨utf8, b :: read, position,
          if bs.length = read.length then "unexpected end of data" else "invalid continuation byte"⟩
termination_by bs => bs.length
decreasing_by simp only [List.length_drop, List.length_cons]; omega

/-! ## One byte, one character -/

/-- The characters of ASCII bytes, the first of which stands at `position`. -/
def decodeAscii (position : Nat) : List UInt8 → Except Fault (List Char)
  | [] => .ok []
  | b :: bs =>
    if b.toNat < 0x80 then (decodeAscii (position + 1) bs).map (Char.ofNat b.toNat :: ·)
    else .error ⟨ascii, [b], position, "ordinal not in range(128)"⟩

/-- The characters of the bytes. -/
def decode : Encoding → List UInt8 → Except Fault (List Char)
  | utf8, bytes => decodeUtf8 0 bytes
  | latin1, bytes => .ok (bytes.map fun b => Char.ofNat b.toNat)
  | ascii, bytes => decodeAscii 0 bytes

end Encoding

namespace Codec

/-- The codec of an encoding. -/
def ofEncoding (e : Encoding) : Codec :=
  .decoder fun bytes =>
    match e.decode bytes with
    | .ok cs => .text cs
    | .error fault => .unreadable fault.message

/-- The codec of an encoding that there is not: it is missed when a file has been opened. -/
def unknown (name : String) : Codec := .decoder fun _ => .unreadable ("unknown encoding: " ++ name)

/-- The codecs that come with the library. -/
def named : Codecs := fun name =>
  if name.toList.contains '\x00' then .barred "ValueError" "embedded null character"
  else
    match Encoding.ofName? name with
    | some e => ofEncoding e
    | none => unknown name

instance : Coe String Codec := ⟨named⟩

end Codec

namespace Text

/-- The text with every line end a line feed. -/
def unifyLineEnds : List Char → List Char
  | [] => []
  | '\r' :: '\n' :: cs => '\n' :: unifyLineEnds cs
  | '\r' :: cs => '\n' :: unifyLineEnds cs
  | c :: cs => c :: unifyLineEnds cs

end Text

end CxxFloor
