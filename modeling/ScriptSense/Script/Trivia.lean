/-! What stands between the tokens of a script: blanks and comments. Every measure answers the
number of characters at the front of a text that belong together, zero if there are none. -/
namespace ScriptSense
namespace Script

def spaceRanges : List (Nat × Nat) :=
  [(9, 0xd), (0x20, 0x20), (0xa0, 0xa0), (0x1680, 0x1680), (0x2000, 0x200b), (0x2028, 0x2029),
    (0x202f, 0x202f), (0x205f, 0x2060), (0x3000, 0x3000), (0xfeff, 0xfeff)]

def isSpace (c : Char) : Bool := spaceRanges.any fun r => r.1 ≤ c.toNat && c.toNat ≤ r.2

/-- Blanks that may be broken at, the ones the end of a statement looks across. -/
def breakingRanges : List (Nat × Nat) :=
  [(9, 0xd), (0x20, 0x20), (0x1680, 0x1680), (0x2000, 0x2006), (0x2008, 0x200a),
    (0x2028, 0x2029), (0x205f, 0x205f), (0x3000, 0x3000)]

def isBreaking (c : Char) : Bool := breakingRanges.any fun r => r.1 ≤ c.toNat && c.toNat ≤ r.2

/-- The plain blanks, those of the first block of characters. -/
def isPlainSpace (c : Char) : Bool := c == ' ' || (9 ≤ c.toNat && c.toNat ≤ 0xd)

def isLineEnd (c : Char) : Bool := c == '\n' || c.toNat == 0x2028 || c.toNat == 0x2029

/-- The length of the longest front whose characters all pass. -/
def run (p : Char → Bool) (text : List Char) : Nat := (text.takeWhile p).length

def blockTail : List Char → Nat
  | [] => 0
  | '*' :: '/' :: _ => 2
  | _ :: rest =>
    match blockTail rest with
    | 0 => 0
    | n + 1 => n + 2

/-- The length of a comment; an unclosed block is no comment. -/
def commentLength : List Char → Nat
  | '/' :: '/' :: rest => 2 + run (fun c => !(isLineEnd c || c == '\r')) rest
  | '/' :: '*' :: rest =>
    match blockTail rest with
    | 0 => 0
    | n + 1 => n + 3
  | _ => 0

end Script
end ScriptSense
