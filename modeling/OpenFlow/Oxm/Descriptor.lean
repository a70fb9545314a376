/-!
# Descriptors of match fields

A descriptor says how one type of match field is laid out: its name, the class
and field code that identify it on the wire, the number of bytes of its value,
and whether a mask may follow the value.  The class and the field code together
are the *type* of a field.

A header has room for seven bits of a field code.  `FieldDescriptor.ofCodes` keeps
these; a descriptor that is put together otherwise may have a code of eight bits.

The forty field types of the basic class are the constructors of
`FieldType`, in the order of their codes; `FieldType.descriptor` gives the
descriptor of each.
-/

namespace OpenFlow

/-- The layout of one type of match field. -/
structure FieldDescriptor where
  name : String
  /-- The class of the field type. -/
  oxmClass : UInt16
  /-- The code of the field type in its class. -/
  field : UInt8
  /-- The number of bytes of a value. -/
  width : UInt8
  /-- Whether a mask may follow the value. -/
  maskable : Bool
  deriving DecidableEq

namespace FieldDescriptor

/-- A descriptor that keeps the low seven bits of a field code. -/
def ofCodes (name : String) (oxmClass : UInt16) (field width : UInt8) (maskable : Bool) :
    FieldDescriptor :=
  ⟨name, oxmClass, field &&& 0x7f, width, maskable⟩

theorem field_ofCodes_lt (name : String) (oxmClass : UInt16) (field width : UInt8)
    (maskable : Bool) : (ofCodes name oxmClass field width maskable).field < 128 := by
  change field &&& 0x7f < 128
  rw [UInt8.lt_iff_toNat_lt, UInt8.toNat_and]
  exact Nat.lt_of_le_of_lt Nat.and_le_right (by decide)

/-- The type of the field: class and field code. -/
def key (d : FieldDescriptor) : UInt16 × UInt8 := (d.oxmClass, d.field)

end FieldDescriptor

/-- The class of the field types every switch knows. -/
def basicClass : UInt16 := 0x8000

/-- The field types of the basic class, in the order of their codes. -/
inductive FieldType where
  | inPort
  | inPhyPort
  | metadata
  | ethDst
  | ethSrc
  | ethType
  | vlanVid
  | vlanPcp
  | ipDscp
  | ipEcn
  | ipProto
  | ipv4Src
  | ipv4Dst
  | tcpSrc
  | tcpDst
  | udpSrc
  | udpDst
  | sctpSrc
  | sctpDst
  | icmpv4Type
  | icmpv4Code
  | arpOp
  | arpSpa
  | arpTpa
  | arpSha
  | arpTha
  | ipv6Src
  | ipv6Dst
  | ipv6Flabel
  | icmpv6Type
  | icmpv6Code
  | ipv6NdTarget
  | ipv6NdSll
  | ipv6NdTll
  | mplsLabel
  | mplsTc
  | mplsBos
  | pbbIsid
  | tunnelId
  | ipv6Exthdr
  deriving DecidableEq, Repr

namespace FieldType

/-- Every field type of the basic class, in the order of the codes. -/
def all : List FieldType :=
  [inPort, inPhyPort, metadata, ethDst, ethSrc, ethType, vlanVid, vlanPcp, ipDscp, ipEcn,
   ipProto, ipv4Src, ipv4Dst, tcpSrc, tcpDst, udpSrc, udpDst, sctpSrc, sctpDst, icmpv4Type,
   icmpv4Code, arpOp, arpSpa, arpTpa, arpSha, arpTha, ipv6Src, ipv6Dst, ipv6Flabel,
   icmpv6Type, icmpv6Code, ipv6NdTarget, ipv6NdSll, ipv6NdTll, mplsLabel, mplsTc, mplsBos,
   pbbIsid, tunnelId, ipv6Exthdr]

/-- The layout of a field type of the basic class. -/
def descriptor : FieldType → FieldDescriptor
  | inPort => ⟨"IN_PORT", basicClass, 0, 4, false⟩
  | inPhyPort => ⟨"IN_PHY_PORT", basicClass, 1, 4, false⟩
  | metadata => ⟨"METADATA", basicClass, 2, 8, true⟩
  | ethDst => ⟨"ETH_DST", basicClass, 3, 6, true⟩
  | ethSrc => ⟨"ETH_SRC", basicClass, 4, 6, true⟩
  | ethType => ⟨"ETH_TYPE", basicClass, 5, 2, false⟩
  | vlanVid => ⟨"VLAN_VID", basicClass, 6, 2, true⟩
  | vlanPcp => ⟨"VLAN_PCP", basicClass, 7, 1, false⟩
  | ipDscp => ⟨"IP_DSCP", basicClass, 8, 1, false⟩
  | ipEcn => ⟨"IP_ECN", basicClass, 9, 1, false⟩
  | ipProto => ⟨"IP_PROTO", basicClass, 10, 1, false⟩
  | ipv4Src => ⟨"IPV4_SRC", basicClass, 11, 4, true⟩
  | ipv4Dst => ⟨"IPV4_DST", basicClass, 12, 4, true⟩
  | tcpSrc => ⟨"TCP_SRC", basicClass, 13, 2, false⟩
  | tcpDst => ⟨"TCP_DST", basicClass, 14, 2, false⟩
  | udpSrc => ⟨"UDP_SRC", basicClass, 15, 2, false⟩
  | udpDst => ⟨"UDP_DST", basicClass, 16, 2, false⟩
  | sctpSrc => ⟨"SCTP_SRC", basicClass, 17, 2, false⟩
  | sctpDst => ⟨"SCTP_DST", basicClass, 18, 2, false⟩
  | icmpv4Type => ⟨"ICMPV4_TYPE", basicClass, 19, 1, false⟩
  | icmpv4Code => ⟨"ICMPV4_CODE", basicClass, 20, 1, false⟩
  | arpOp => ⟨"ARP_OP", basicClass, 21, 2, false⟩
  | arpSpa => ⟨"ARP_SPA", basicClass, 22, 4, true⟩
  | arpTpa => ⟨"ARP_TPA", basicClass, 23, 4, true⟩
  | arpSha => ⟨"ARP_SHA", basicClass, 24, 6, true⟩
  | arpTha => ⟨"ARP_THA", basicClass, 25, 6, true⟩
  | ipv6Src => ⟨"IPV6_SRC", basicClass, 26, 16, true⟩
  | ipv6Dst => ⟨"IPV6_DST", basicClass, 27, 16, true⟩
  | ipv6Flabel => ⟨"IPV6_FLABEL", basicClass, 28, 4, true⟩
  | icmpv6Type => ⟨"ICMPV6_TYPE", basicClass, 29, 1, false⟩
  | icmpv6Code => ⟨"ICMPV6_CODE", basicClass, 30, 1, false⟩
  | ipv6NdTarget => ⟨"IPV6_ND_TARGET", basicClass, 31, 16, false⟩
  | ipv6NdSll => ⟨"IPV6_ND_SLL", basicClass, 32, 6, false⟩
  | ipv6NdTll => ⟨"IPV6_ND_TLL", basicClass, 33, 6, false⟩
  | mplsLabel => ⟨"MPLS_LABEL", basicClass, 34, 4, false⟩
  | mplsTc => ⟨"MPLS_TC", basicClass, 35, 1, false⟩
  | mplsBos => ⟨"MPLS_BOS", basicClass, 36, 1, false⟩
  | pbbIsid => ⟨"PBB_ISID", basicClass, 37, 3, true⟩
  | tunnelId => ⟨"TUNNEL_ID", basicClass, 38, 8, true⟩
  | ipv6Exthdr => ⟨"IPV6_EXTHDR", basicClass, 39, 2, true⟩

/-- The field type of the basic class with a given name. -/
def ofName? (name : String) : Option FieldType :=
  all.find? (·.descriptor.name == name)

/-- Whether a field type carries state of the pipeline, which packets do not hold
and actions cannot write. -/
def isPipeline : FieldType → Bool
  | inPort | inPhyPort | metadata | ipv6Exthdr => true
  | _ => false

theorem mem_all (t : FieldType) : t ∈ all := by
  cases t <;> decide

theorem field_descriptor (t : FieldType) : t.descriptor.field = UInt8.ofNat t.ctorIdx := by
  cases t <;> rfl

theorem field_descriptor_lt (t : FieldType) : t.descriptor.field < 128 := by
  cases t <;> decide

theorem oxmClass_descriptor (t : FieldType) : t.descriptor.oxmClass = basicClass := by
  cases t <;> rfl

end FieldType

/-! ## Places a field is used in -/

/-- Where a field is being used. -/
inductive FieldPlace where
  /-- In a match, which takes every field. -/
  | pattern
  /-- In a set-field action, which takes no pipeline field. -/
  | setField
  deriving DecidableEq, Repr

namespace FieldDescriptor

/-- Whether a descriptor has the type of a pipeline field. -/
def isPipeline (d : FieldDescriptor) : Bool :=
  FieldType.all.any fun t => t.isPipeline && t.descriptor.key == d.key

/-- Whether a field may be used in a place. -/
def allowedIn (d : FieldDescriptor) : FieldPlace → Bool
  | .pattern => true
  | .setField => !d.isPipeline

end FieldDescriptor
end OpenFlow
