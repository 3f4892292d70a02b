import PacketClassifier.Word

/-!
# Header fields

The header fields a rule can match on, in the order in which conjunctions list
them, each with its name and its width in bits.
-/

namespace PacketClassifier

/-- A header field of a packet. -/
inductive Field where
  | inPort
  | inPhyPort
  | metadata
  | ethDst
  | ethSrc
  | ethType
  | vlanVid
  | vlanPcp
  | ipDscp
  | ipEcn
  | ipProto
  | ipv4Src
  | ipv4Dst
  | tcpSrc
  | tcpDst
  | udpSrc
  | udpDst
  | sctpSrc
  | sctpDst
  | icmpv4Type
  | icmpv4Code
  | arpOp
  | arpSpa
  | arpTpa
  | arpSha
  | arpTha
  | ipv6Src
  | ipv6Dst
  | ipv6Flabel
  | icmpv6Type
  | icmpv6Code
  | mplsLabel
  | mplsTc
deriving DecidableEq, Inhabited

namespace Field

/-- Every field, in field order. -/
def all : List Field :=
  [.inPort, .inPhyPort, .metadata, .ethDst, .ethSrc, .ethType, .vlanVid,
   .vlanPcp, .ipDscp, .ipEcn, .ipProto, .ipv4Src, .ipv4Dst, .tcpSrc, .tcpDst,
   .udpSrc, .udpDst, .sctpSrc, .sctpDst, .icmpv4Type, .icmpv4Code, .arpOp,
   .arpSpa, .arpTpa, .arpSha, .arpTha, .ipv6Src, .ipv6Dst, .ipv6Flabel,
   .icmpv6Type, .icmpv6Code, .mplsLabel, .mplsTc]

/-- The position of a field in field order. -/
def index (field : Field) : Nat :=
  field.ctorIdx

/-- The name of a field. -/
def name : Field → String
  | .inPort => "in_port"
  | .inPhyPort => "in_phy_port"
  | .metadata => "metadata"
  | .ethDst => "eth_dst"
  | .ethSrc => "eth_src"
  | .ethType => "eth_type"
  | .vlanVid => "vlan_vid"
  | .vlanPcp => "vlan_pcp"
  | .ipDscp => "ip_dscp"
  | .ipEcn => "ip_ecn"
  | .ipProto => "ip_proto"
  | .ipv4Src => "ipv4_src"
  | .ipv4Dst => "ipv4_dst"
  | .tcpSrc => "tcp_src"
  | .tcpDst => "tcp_dst"
  | .udpSrc => "udp_src"
  | .udpDst => "udp_dst"
  | .sctpSrc => "sctp_src"
  | .sctpDst => "sctp_dst"
  | .icmpv4Type => "icmpv4_type"
  | .icmpv4Code => "icmpv4_code"
  | .arpOp => "arp_op"
  | .arpSpa => "arp_spa"
  | .arpTpa => "arp_tpa"
  | .arpSha => "arp_sha"
  | .arpTha => "arp_tha"
  | .ipv6Src => "ipv6_src"
  | .ipv6Dst => "ipv6_dst"
  | .ipv6Flabel => "ipv6_flabel"
  | .icmpv6Type => "icmpv6_type"
  | .icmpv6Code => "icmpv6_code"
  | .mplsLabel => "mpls_label"
  | .mplsTc => "mpls_tc"

/-- The width of a field in bits. -/
def bits : Field → Nat
  | .inPort | .inPhyPort | .ipv4Src | .ipv4Dst | .arpSpa | .arpTpa => 32
  | .metadata => 64
  | .ethDst | .ethSrc | .arpSha | .arpTha => 48
  | .ethType | .tcpSrc | .tcpDst | .udpSrc | .udpDst | .sctpSrc | .sctpDst
    | .arpOp => 16
  | .vlanVid => 13
  | .vlanPcp | .mplsTc => 3
  | .ipDscp => 6
  | .ipEcn => 2
  | .ipProto | .icmpv4Type | .icmpv4Code | .icmpv6Type | .icmpv6Code => 8
  | .ipv6Src | .ipv6Dst => 128
  | .ipv6Flabel | .mplsLabel => 20

/-- The field of a given name, if there is one.  Names are taken as they stand. -/
def ofName? (name : String) : Option Field :=
  all.find? (fun field => field.name == name)

/--
The name of a field as a type member is named: every part of the name starts
with a capital and nothing separates the parts.
-/
def memberName (field : Field) : String :=
  String.join ((field.name.splitOn "_").map String.capitalize)

/-- The mask that covers a whole field. -/
def fullMask (field : Field) : Word :=
  Word.lowBits field.bits

/-- The mask of the `length` leading bits of a field. -/
def leadingMask (field : Field) (length : Nat) : Word :=
  field.fullMask &&& ~~~(field.fullMask >>> length)

/-- A word has no bit beyond the width of the field. -/
def Holds (field : Field) (word : Word) : Prop :=
  word &&& field.fullMask = word

instance (field : Field) (word : Word) : Decidable (field.Holds word) :=
  inferInstanceAs (Decidable (_ = _))

theorem all_getElem_index? (field : Field) :
    all[field.index]? = some field := by
  cases field <;> rfl

/-- Fields are told apart by their position. -/
theorem index_injective {left right : Field}
    (same : left.index = right.index) : left = right := by
  have found := all_getElem_index? left
  rw [same, all_getElem_index? right] at found
  exact (Option.some.inj found).symm

theorem holds_leadingMask (field : Field) (length : Nat) :
    field.Holds (field.leadingMask length) := by
  simp only [Holds, leadingMask]
  rw [BitVec.and_assoc, BitVec.and_comm (~~~_), ← BitVec.and_assoc,
    BitVec.and_self]

end Field

end PacketClassifier
