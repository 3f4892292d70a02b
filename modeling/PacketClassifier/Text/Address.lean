import PacketClassifier.Text.Numeral
import PacketClassifier.Word

/-!
# Written network addresses

IPv4 addresses are four decimal bytes between dots.  IPv6 addresses are eight
hexadecimal groups between colons, of which the longest run of zero groups,
the first of several, is left out between two colons; a run of one group is
kept.  An IPv6 address that stands for an IPv4 address shows the latter.
-/

namespace PacketClassifier.Text

/-- The byte of a word that starts `shift` bits above the lowest bit. -/
def byteAt (word : Word) (shift : Nat) : Nat :=
  (word >>> shift).toNat % 256

/-- The group of sixteen bits that starts `shift` bits above the lowest bit. -/
def groupAt (word : Word) (shift : Nat) : Nat :=
  (word >>> shift).toNat % 65536

/-- An IPv4 address in the low 32 bits of a word. -/
def ipv4 (address : Word) : String :=
  joined "." (([24, 16, 8, 0].map (byteAt address)).map decimal)

/-- The groups of an IPv6 address, the most significant first. -/
def ipv6Groups (address : Word) : List Nat :=
  [112, 96, 80, 64, 48, 32, 16, 0].map (groupAt address)

/-- The number of zero groups from position `start` on. -/
def zeroRun (groups : List Nat) (start : Nat) : Nat :=
  ((groups.drop start).takeWhile (· == 0)).length

/-- Where the longest run of zero groups starts, the first of equals. -/
def longestZeroRun (groups : List Nat) : Nat :=
  (List.range groups.length).foldl
    (fun best start =>
      if zeroRun groups best < zeroRun groups start then start else best) 0

/-- Hexadecimal groups between colons. -/
def colonGroups (groups : List Nat) : String :=
  joined ":" (groups.map (fun group => String.ofList (Nat.toDigits 16 group)))

/-- An IPv6 address. -/
def ipv6 (address : Word) : String :=
  let groups := ipv6Groups address
  let start := longestZeroRun groups
  let length := zeroRun groups start
  if groups.take 6 = [0, 0, 0, 0, 0, 65535] then
    "::ffff:" ++ ipv4 address
  else if length > 1 then
    colonGroups (groups.take start) ++ "::" ++
      colonGroups (groups.drop (start + length))
  else
    colonGroups groups

end PacketClassifier.Text
