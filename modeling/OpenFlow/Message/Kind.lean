/-!
# Kinds of message

The type code in the header of a message names one of thirty kinds.  Larger
codes name none.

* `MessageKind.code` and `MessageKind.ofCode?` are inverse to each other
  (`MessageKind.ofCode?_eq_some_iff`).
-/

namespace OpenFlow

/-- The kinds of message, in the order of their codes. -/
inductive MessageKind where
  | hello
  | error
  | echoRequest
  | echoReply
  | experimenter
  | featuresRequest
  | featuresReply
  | getConfigRequest
  | getConfigReply
  | setConfig
  | packetIn
  | flowRemoved
  | portStatus
  | packetOut
  | flowMod
  | groupMod
  | portMod
  | tableMod
  | multipartRequest
  | multipartReply
  | barrierRequest
  | barrierReply
  | queueGetConfigRequest
  | queueGetConfigReply
  | roleRequest
  | roleReply
  | getAsyncRequest
  | getAsyncReply
  | setAsync
  | meterMod
  deriving DecidableEq, Repr

namespace MessageKind

/-- Every kind, in the order of the codes. -/
def all : List MessageKind :=
  [hello, error, echoRequest, echoReply, experimenter, featuresRequest, featuresReply,
   getConfigRequest, getConfigReply, setConfig, packetIn, flowRemoved, portStatus, packetOut,
   flowMod, groupMod, portMod, tableMod, multipartRequest, multipartReply, barrierRequest,
   barrierReply, queueGetConfigRequest, queueGetConfigReply, roleRequest, roleReply,
   getAsyncRequest, getAsyncReply, setAsync, meterMod]

/-- The type code of a kind of message. -/
def code (k : MessageKind) : UInt8 := UInt8.ofNat k.ctorIdx

/-- The kind a type code names, if it names one. -/
def ofCode? (c : UInt8) : Option MessageKind := all[c.toNat]?

/-- The short name of a kind, as error texts give it. -/
def name : MessageKind → String
  | hello => "Hello"
  | error => "Error"
  | echoRequest => "EchoReq"
  | echoReply => "EchoResp"
  | experimenter => "Experimenter"
  | featuresRequest => "FeaturesReq"
  | featuresReply => "FeaturesResp"
  | getConfigRequest => "GetConfigReq"
  | getConfigReply => "GetConfigResp"
  | setConfig => "SetConfig"
  | packetIn => "PacketIn"
  | flowRemoved => "FlowRemoved"
  | portStatus => "PortStatus"
  | packetOut => "PacketOut"
  | flowMod => "FlowMod"
  | groupMod => "GroupMod"
  | portMod => "PortMod"
  | tableMod => "TableMod"
  | multipartRequest => "MultipartReq"
  | multipartReply => "MultipartResp"
  | barrierRequest => "BarrierReq"
  | barrierReply => "BarrierResp"
  | queueGetConfigRequest => "QueueGetConfigReq"
  | queueGetConfigReply => "QueueGetConfigResp"
  | roleRequest => "RoleReq"
  | roleReply => "RoleResp"
  | getAsyncRequest => "GetAsyncReq"
  | getAsyncReply => "GetAsyncResp"
  | setAsync => "SetAsync"
  | meterMod => "MeterMod"

@[simp] theorem ofCode?_code (k : MessageKind) : ofCode? k.code = some k := by
  cases k <;> rfl

theorem code_injective {k l : MessageKind} (h : k.code = l.code) : k = l := by
  have hk : ofCode? k.code = some l := by rw [h, ofCode?_code]
  rw [ofCode?_code] at hk
  exact Option.some.inj hk

theorem ofCode?_eq_some_iff {c : UInt8} {k : MessageKind} :
    ofCode? c = some k ↔ c = k.code := by
  constructor
  · intro h
    have hlt : c.toNat < 30 := by
      have := (List.getElem?_eq_some_iff.mp h).1
      exact this
    have hall : ∀ n : Fin 30, ∀ k, ofCode? (UInt8.ofNat n.val) = some k →
        UInt8.ofNat n.val = k.code := by decide
    have hc := hall ⟨c.toNat, hlt⟩ k
    simpa using hc (by simpa using h)
  · rintro rfl
    exact ofCode?_code k

end MessageKind
end OpenFlow
