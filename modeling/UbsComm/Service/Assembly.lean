import UbsComm.Library.Run
import UbsComm.Service.EndpointBroken

/-! # Assembling a server channel from its connections

Each connection of a peer brings the information its sender chose.  The first one for a uuid makes a
record, the others join it, and the handler that finds enough endpoints in the record makes the channel.
The handlers run concurrently; what one of them does under a lock or by one atomic operation is a step. -/

namespace UbsComm.Service

open Library Function

def channelEpMaxNum : Nat := 64

/-- The enumerations arrive as raw bytes, and the code only compares them. -/
@[ext] structure InnerConnectOptions where
  clientGroupId : Nat
  serverGroupId : Nat
  linkCount : Nat
  mode : Nat
  cbType : Nat
deriving DecidableEq

/-- The connection information after its checksum was found right. -/
structure SerConnInfo where
  version : Nat
  channelId : Nat
  multiRailId : Nat
  index : Nat
  driverIndex : Nat
  driverSize : Nat
  totalLinkCount : Nat
  policy : Nat
  options : InnerConnectOptions
deriving DecidableEq

variable (info : SerConnInfo)

def serConnInfoCheck : Bool :=
  !(info.totalLinkCount == 0 || decide (info.totalLinkCount > 64)) &&
    !(info.options.linkCount == 0 || decide (info.options.linkCount > 16)) &&
    !decide (info.index ≥ info.totalLinkCount)

/-- A connection: the address of the peer, the endpoint, and what the peer sent. -/
structure Arrival where
  ip : Nat
  ep : Nat
  info : SerConnInfo
deriving DecidableEq

/-- `SerUuid`, written out byte by byte. -/
abbrev Uuid := Nat × Nat

def Arrival.uuid (arrival : Arrival) : Uuid := (arrival.ip, arrival.info.channelId)

inductive ConnectingEpState where
  | newEp
  | newChannel
  | epBroken
deriving DecidableEq

/-- The endpoints of `mEpVector` are kept with the connections they came from. -/
structure HcomConnectingEpInfo where
  uuid : Uuid
  connInfo : SerConnInfo
  connState : ConnectingEpState
  nepBroken : Nat → Bool
  arrivals : List Arrival

namespace HcomConnectingEpInfo

def new (arrival : Arrival) : HcomConnectingEpInfo where
  uuid := arrival.uuid
  connInfo := arrival.info
  connState := .newEp
  nepBroken := fun _ => false
  arrivals := [arrival]

variable (epInfo : HcomConnectingEpInfo)

def epVector : List Nat := epInfo.arrivals.map (·.ep)

def compare (info : SerConnInfo) : Bool :=
  epInfo.connInfo.version == info.version &&
    epInfo.connInfo.channelId == info.channelId &&
    epInfo.connInfo.policy == info.policy &&
    info.index == epInfo.epVector.length &&
    epInfo.connInfo.options.linkCount == info.options.linkCount &&
    epInfo.connInfo.options.cbType == info.options.cbType &&
    epInfo.connInfo.options.clientGroupId == info.options.clientGroupId &&
    epInfo.connInfo.options.serverGroupId == info.options.serverGroupId

/-- The endpoint is added whatever the state is; the result tells whether that is still `NEW_EP`. -/
def addEp (arrival : Arrival) : HcomConnectingEpInfo × Bool :=
  if epInfo.epVector.length ≥ 64 then (epInfo, false)
  else
    ({ epInfo with
        nepBroken := update epInfo.nepBroken epInfo.epVector.length false
        arrivals := epInfo.arrivals ++ [arrival] }, epInfo.connState == .newEp)

def allEPBroken (index : Nat) : HcomConnectingEpInfo × Bool :=
  if index ≥ epInfo.epVector.length ∨ index ≥ channelEpMaxNum then (epInfo, false)
  else
    let epInfo := { epInfo with nepBroken := update epInfo.nepBroken index true }
    if !(List.range epInfo.epVector.length).all epInfo.nepBroken then (epInfo, false)
    else if epInfo.connState = .newEp then ({ epInfo with connState := .epBroken }, true)
    else (epInfo, false)

/-- The places of `mEpState` that the two functions touch. -/
def addEpTouches : List Nat :=
  if epInfo.epVector.length ≥ 64 then [] else [epInfo.epVector.length]

def allEPBrokenTouches (index : Nat) : List Nat :=
  if index ≥ epInfo.epVector.length ∨ index ≥ channelEpMaxNum then []
  else index :: List.range epInfo.epVector.length

end HcomConnectingEpInfo

/-- Where a call of `ServiceHandleNewEndPoint` is. -/
inductive HandlerStage where
  | emplaced
  | claimed
  | built
  | returned
deriving DecidableEq

structure Handler where
  arrival : Arrival
  record : Nat
  stage : HandlerStage

/-- A channel of `mChannelMap`, with the connections that its endpoints came from. -/
structure ServerChannel where
  uuid : Uuid
  connInfo : SerConnInfo
  epArr : List Nat
  arrivals : List Arrival
deriving DecidableEq

/-- The service while channels are assembled.  `upCtx` is what an endpoint of a connection in progress
    has in `Ep2ChanUpCtx`: its record and its index of five bits.  `erasers` are the calls of
    `ServiceEndPointBroken` that are about to take a record out of the map.  `arrived` and `touched` keep the
    connections that have arrived and the places of the endpoint arrays that were accessed. -/
structure HcomServiceImp where
  newEpMap : Uuid → Option Nat
  records : List HcomConnectingEpInfo
  upCtx : Nat → Option (Nat × Nat)
  handlers : List Handler
  erasers : List Nat
  channels : List ServerChannel
  arrived : List Arrival
  touched : List Nat

/-- How `Initialize` of a channel ends: something else fails, an endpoint is broken, or all is well. -/
inductive InitResult where
  | failed
  | epBroken
  | established
deriving DecidableEq

inductive AssemblyStep where
  /-- A connection arrives and `EmplaceNewEndpoint` runs under its lock. -/
  | arrive (arrival : Arrival)
  /-- The handler stores the up context, compares the sizes and claims the record. -/
  | check (handler : Nat)
  /-- The handler that has claimed the record runs `ServiceNewChannel`; the user accepts the channel or not. -/
  | build (handler : Nat) (init : InitResult) (accepted : Bool)
  /-- It takes the record out of the map. -/
  | finish (handler : Nat)
  /-- An endpoint breaks. -/
  | broken (ep : Nat)
  /-- The record of endpoints that are all broken is taken out of the map. -/
  | erase (record : Nat)

namespace HcomServiceImp

def new : HcomServiceImp where
  newEpMap := fun _ => none
  records := []
  upCtx := fun _ => none
  handlers := []
  erasers := []
  channels := []
  arrived := []
  touched := []

variable (service : HcomServiceImp)

/-- `EmplaceNewEndpoint`; a connection that it refuses leaves no handler. -/
def emplaceNewEndpoint (arrival : Arrival) : HcomServiceImp :=
  match service.newEpMap arrival.uuid with
  | none =>
    if !serConnInfoCheck arrival.info then service
    else
      { service with
        newEpMap := update service.newEpMap arrival.uuid (some service.records.length)
        records := service.records ++ [.new arrival]
        handlers := service.handlers ++ [⟨arrival, service.records.length, .emplaced⟩]
        touched := 0 :: service.touched }
  | some record =>
    match service.records[record]? with
    | none => service
    | some epInfo =>
      if !epInfo.compare arrival.info then service
      else
        let service := { service with
          records := service.records.set record (epInfo.addEp arrival).1
          touched := epInfo.addEpTouches ++ service.touched }
        if !(epInfo.addEp arrival).2 then service
        else { service with handlers := service.handlers ++ [⟨arrival, record, .emplaced⟩] }

def setStage (handler : Nat) (call : Handler) (stage : HandlerStage) : HcomServiceImp :=
  { service with handlers := service.handlers.set handler { call with stage } }

/-- The up context, the comparison of the sizes and the compare-and-swap of the state. -/
def checkLast (handler : Nat) (call : Handler) (epInfo : HcomConnectingEpInfo) : HcomServiceImp :=
  let service := { service with
    upCtx := update service.upCtx call.arrival.ep (some (call.record, call.arrival.info.index % 2 ^ 5)) }
  if epInfo.epVector.length < call.arrival.info.totalLinkCount then service.setStage handler call .returned
  else if epInfo.connState ≠ .newEp then service.setStage handler call .returned
  else
    { service.setStage handler call .claimed with
      records := service.records.set call.record { epInfo with connState := .newChannel } }

/-- `ServiceNewChannel`: the endpoints of the record become those of a channel, which is kept if its uuid is
    new and the user accepts it. -/
def serviceNewChannel (call : Handler) (epInfo : HcomConnectingEpInfo) (init : InitResult)
    (accepted : Bool) : HcomServiceImp :=
  if epInfo.epVector.length = 0 ∨ epInfo.epVector.length > 64 then service
  else
    match init with
    | .failed => service
    | .epBroken | .established =>
      let service := { service with
        upCtx := fun ep => if ep ∈ epInfo.epVector then none else service.upCtx ep
        touched := List.range epInfo.epVector.length ++ service.touched }
      if init = .epBroken then service
      else if service.channels.any fun channel => channel.uuid == call.arrival.uuid then service
      else if !accepted then service
      else
        { service with
          channels := ⟨call.arrival.uuid, call.arrival.info, epInfo.epVector, epInfo.arrivals⟩ :: service.channels }

/-- The up context of the endpoint tells the record and the index; an endpoint without one is ignored. -/
def serviceEndPointBroken (ep : Nat) : HcomServiceImp :=
  match service.upCtx ep with
  | none => service
  | some (record, epIdx) =>
    match service.records[record]? with
    | none => service
    | some epInfo =>
      { service with
        records := service.records.set record (epInfo.allEPBroken epIdx).1
        erasers := if (epInfo.allEPBroken epIdx).2 then record :: service.erasers else service.erasers
        touched := epInfo.allEPBrokenTouches epIdx ++ service.touched }

def step : AssemblyStep → HcomServiceImp
  | .arrive arrival => emplaceNewEndpoint { service with arrived := arrival :: service.arrived } arrival
  | .check handler =>
    match service.handlers[handler]? with
    | none => service
    | some call =>
      match service.records[call.record]? with
      | none => service
      | some epInfo => if call.stage = .emplaced then service.checkLast handler call epInfo else service
  | .build handler init accepted =>
    match service.handlers[handler]? with
    | none => service
    | some call =>
      match service.records[call.record]? with
      | none => service
      | some epInfo =>
        if call.stage = .claimed then (service.serviceNewChannel call epInfo init accepted).setStage handler call .built
        else service
  | .finish handler =>
    match service.handlers[handler]? with
    | none => service
    | some call =>
      if call.stage = .built then
        { service.setStage handler call .returned with
          newEpMap := update service.newEpMap call.arrival.uuid none }
      else service
  | .broken ep => service.serviceEndPointBroken ep
  | .erase record =>
    match service.records[record]? with
    | none => service
    | some epInfo =>
      if record ∈ service.erasers then
        { service with
          erasers := service.erasers.erase record
          newEpMap := update service.newEpMap epInfo.uuid none }
      else service

/-! ## What a channel should be -/

end HcomServiceImp

/-- What the connections of one channel share: all but the index and the driver of each. -/
def SerConnInfo.common : SerConnInfo := { info with index := 0, driverIndex := 0 }

/-- As many connections of the uuid as they all say, in the order of their indices and with the same information. -/
structure ServerChannel.Right (arrived : List Arrival) (channel : ServerChannel) : Prop where
  count : channel.arrivals.length = channel.connInfo.totalLinkCount
  came : ∀ arrival ∈ channel.arrivals, arrival ∈ arrived ∧ arrival.uuid = channel.uuid
  agree : ∀ arrival ∈ channel.arrivals, arrival.info.common = channel.connInfo.common
  indices : ∀ (i : Nat) (arrival : Arrival), channel.arrivals[i]? = some arrival → arrival.info.index = i
  endpoints : ∀ (i : Nat) (arrival : Arrival), channel.arrivals[i]? = some arrival → channel.epArr[i]? = some arrival.ep

namespace HcomServiceImp

/-- Every channel is made as it should be, none twice, and no place outside the arrays is accessed. -/
structure Right (service : HcomServiceImp) : Prop where
  channels : ∀ channel ∈ service.channels, channel.Right service.arrived
  once : (service.channels.map (·.uuid)).Nodup
  touched : ∀ place ∈ service.touched, place < channelEpMaxNum

end HcomServiceImp

/-- The fields that the comparison leaves out. -/
def HcomConnectingEpInfo.AgreesInRest (epInfo : HcomConnectingEpInfo) (info : SerConnInfo) : Prop :=
  info.totalLinkCount = epInfo.connInfo.totalLinkCount ∧ info.multiRailId = epInfo.connInfo.multiRailId ∧
    info.driverSize = epInfo.connInfo.driverSize ∧ info.options.mode = epInfo.connInfo.options.mode ∧
    info.index < info.totalLinkCount

instance (epInfo : HcomConnectingEpInfo) (info : SerConnInfo) : Decidable (epInfo.AgreesInRest info) :=
  inferInstanceAs (Decidable (_ ∧ _))

/-- A first connection that is taken has index 0, and one that is taken into a record agrees in the rest. -/
def CarefulWith : Option HcomConnectingEpInfo → Prop
  | none => serConnInfoCheck info = true → info.index = 0
  | some epInfo => epInfo.compare info = true → epInfo.AgreesInRest info

instance (found) : Decidable (CarefulWith info found) := by
  cases found <;> dsimp only [CarefulWith] <;> infer_instance

namespace HcomServiceImp

def connecting (service : HcomServiceImp) (uuid : Uuid) : Option HcomConnectingEpInfo :=
  (service.newEpMap uuid).bind fun record => service.records[record]?

def Careful (service : HcomServiceImp) : AssemblyStep → Prop
  | .arrive arrival => CarefulWith arrival.info (service.connecting arrival.uuid)
  | .check _ | .build _ _ _ | .finish _ | .broken _ | .erase _ => True

instance (service : HcomServiceImp) (event) : Decidable (service.Careful event) := by
  cases event <;> dsimp only [Careful] <;> infer_instance

end HcomServiceImp

end UbsComm.Service
