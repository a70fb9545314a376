import OpenFlow.Element.List
import OpenFlow.Wire.Message

/-!
# The wire form of actions

Every action fills a multiple of eight bytes.  A set-field action is padded to
one; where its field is of an unknown type, the body is kept as it came, so that
writing the action gives the same bytes back.
-/

namespace OpenFlow

namespace SetField

/-- The length of a set-field action with this content. -/
def length : SetField → Nat
  | known field => align8 (Element.commonHeaderSize + field.size)
  | raw body => Element.commonHeaderSize + body.length

/-- Read what follows the header of a set-field action.  Where its field is of an unknown type, go
back to the start of the field and keep what is there. -/
def read (ctx : Context) : Reader SetField := do
  let start ← Reader.cursor
  let _ ← OxmHeader.peek
  match ← Reader.attempt (OxmField.read ctx.registries.fields) with
  | .ok field => return known field
  | .error (.unknownFieldType oxmClass field) =>
    if ctx.unknownFields = .skip then
      Reader.moveTo start
      return raw (← Reader.rest)
    else Reader.fail (.unknownFieldType oxmClass field)
  | .error e => Reader.fail e

/-- Append the content of a set-field action, without padding. -/
def writeContent : SetField → Writer
  | known field => field.write
  | raw body => Writer.bytes body

/-- Append what follows the header of a set-field action: its content, and zeros for what the bytes
that it turned out to have leave of the length. -/
def write (content : SetField) : Writer :=
  Writer.padded (fun _ => content.length - Element.commonHeaderSize) content.writeContent

end SetField

namespace Action

/-- The length an action declares. -/
def length : Action → Nat
  | output _ _ => 16
  | setField content => content.length
  | unknown _ length _ => max length.toNat Element.commonHeaderSize
  | _ => 8

/-- Read what follows the header of an action of the type of a blank one. -/
def readBody (ctx : Context) (declared : UInt16) (blank : Action) : Reader Action := do
  match blank with
  | output _ _ =>
    let port ← Reader.u32
    let maxLen ← Reader.u16
    Reader.skip 6
    return output port maxLen
  | setMplsTtl _ =>
    let ttl ← Reader.u8
    Reader.skip 3
    return setMplsTtl ttl
  | setNwTtl _ =>
    let ttl ← Reader.u8
    Reader.skip 3
    return setNwTtl ttl
  | pushVlan _ =>
    let etherType ← Reader.u16
    Reader.skip 2
    return pushVlan etherType
  | pushMpls _ =>
    let etherType ← Reader.u16
    Reader.skip 2
    return pushMpls etherType
  | popMpls _ =>
    let etherType ← Reader.u16
    Reader.skip 2
    return popMpls etherType
  | pushPbb _ =>
    let etherType ← Reader.u16
    Reader.skip 2
    return pushPbb etherType
  | setQueue _ => return setQueue (← Reader.u32)
  | group _ => return group (← Reader.u32)
  | setField _ => return setField (← SetField.read ctx)
  | unknown code _ _ => return unknown code declared (← Reader.rest)
  | copyTtlOut | copyTtlIn | decMplsTtl | popVlan | decNwTtl | popPbb =>
    Reader.skip 4
    return blank

/-- Read an action of the type of a blank one. -/
def read (ctx : Context) (blank : Action) : Reader Action := do
  let (_, declared) ← Element.readHeader
  readBody ctx declared blank

/-- Append what follows the header of an action. -/
def writeBody : Action → Writer
  | output port maxLen => Writer.u32 port ++ Writer.u16 maxLen ++ Writer.zeros 6
  | setMplsTtl ttl | setNwTtl ttl => Writer.u8 ttl ++ Writer.zeros 3
  | pushVlan etherType | pushMpls etherType | popMpls etherType | pushPbb etherType =>
    Writer.u16 etherType ++ Writer.zeros 2
  | setQueue id | group id => Writer.u32 id
  | setField content => content.write
  | unknown _ length body => Writer.fitted (length.toNat - Element.commonHeaderSize) body
  | copyTtlOut | copyTtlIn | decMplsTtl | popVlan | decNwTtl | popPbb => Writer.zeros 4

/-- Append an action. -/
def write (a : Action) : Writer := Element.writeHeader a.code a.length ++ a.writeBody

end Action

instance : Element Action where
  family := Action.family
  headerSize := Element.commonHeaderSize
  registry? r := some r.actions
  generic code length := .unknown code length []
  read := Action.read
  write := Action.write
  length := Action.length
  code := Action.code

end OpenFlow
