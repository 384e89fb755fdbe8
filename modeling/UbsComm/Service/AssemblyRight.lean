import UbsComm.Service.Assembly

/-! # Channels are assembled right if the peer is careful

One invariant for all runs and for the careful ones: what needs the care stands behind `agreed`. -/

namespace UbsComm.Service

open Library List Function

variable {agreed : Prop} {service : HcomServiceImp} {arrival : Arrival} {epInfo : HcomConnectingEpInfo}
  {arrived : List Arrival} {handler record : Nat} {call : Handler} {records : List HcomConnectingEpInfo}
    {stage : HandlerStage}

theorem SerConnInfo.total_eq {info other : SerConnInfo} (same : info.common = other.common) :
    info.totalLinkCount = other.totalLinkCount := by
  have totals := congrArg SerConnInfo.totalLinkCount same
  exact totals

namespace HcomConnectingEpInfo

/-- The indices are those of the places, and all connections agree. -/
structure Agreed (epInfo : HcomConnectingEpInfo) : Prop where
  indices : ∀ (i : Nat) (arrival : Arrival), epInfo.arrivals[i]? = some arrival → arrival.info.index = i
  agree : ∀ arrival ∈ epInfo.arrivals, arrival.info.common = epInfo.connInfo.common
  size : epInfo.arrivals.length ≤ epInfo.connInfo.totalLinkCount

structure Sound (agreed : Prop) (arrived : List Arrival) (epInfo : HcomConnectingEpInfo) : Prop where
  nonempty : 0 < epInfo.arrivals.length
  size : epInfo.arrivals.length ≤ channelEpMaxNum
  came : ∀ arrival ∈ epInfo.arrivals, arrival ∈ arrived ∧ arrival.uuid = epInfo.uuid
  agreed : agreed → epInfo.Agreed

/-- The record may get connections, and otherwise keeps what it was made with. -/
structure Grows (epInfo grown : HcomConnectingEpInfo) : Prop where
  uuid : grown.uuid = epInfo.uuid
  connInfo : grown.connInfo = epInfo.connInfo
  arrivals : ∃ more, grown.arrivals = epInfo.arrivals ++ more

theorem Sound.mono (sound : epInfo.Sound agreed arrived) {arrival : Arrival} :
    epInfo.Sound agreed (arrival :: arrived) :=
  { sound with came := fun a member => ⟨.tail _ (sound.came a member).1, (sound.came a member).2⟩ }

@[simp] theorem length_epVector : epInfo.epVector.length = epInfo.arrivals.length := length_map ..

/-- Flags and the state may change. -/
theorem Sound.flagged (sound : epInfo.Sound agreed arrived) (nepBroken : Nat → Bool) (connState : ConnectingEpState) :
    Sound agreed arrived { epInfo with nepBroken, connState } ∧ Grows epInfo { epInfo with nepBroken, connState } :=
  ⟨{ sound with agreed := fun holds => { sound.agreed holds with } }, rfl, rfl, [], (append_nil _).symm⟩

theorem allEPBroken_fields (index : Nat) :
    ∃ nepBroken connState, (epInfo.allEPBroken index).1 = { epInfo with nepBroken, connState } := by
  unfold allEPBroken
  split
  · exact ⟨_, _, rfl⟩
  · dsimp only
    split
    · exact ⟨_, _, rfl⟩
    · split <;> exact ⟨_, _, rfl⟩

theorem addEp_grows {arrival : Arrival} : Grows epInfo (epInfo.addEp arrival).1 := by
  unfold addEp
  split
  · exact ⟨rfl, rfl, [], (append_nil _).symm⟩
  · exact ⟨rfl, rfl, [arrival], rfl⟩

theorem mem_addEp (added : (epInfo.addEp arrival).2 = true) : arrival ∈ (epInfo.addEp arrival).1.arrivals := by
  unfold addEp at added ⊢
  split at added
  · cases added
  · next room =>
    rw [if_neg room]
    exact mem_append_right _ (mem_singleton_self _)

theorem touches_lt (sound : epInfo.Sound agreed arrived) :
    (∀ place ∈ epInfo.addEpTouches, place < channelEpMaxNum) ∧
      ∀ index, ∀ place ∈ epInfo.allEPBrokenTouches index, place < channelEpMaxNum := by
  have size := sound.size
  constructor
  · intro place member
    unfold addEpTouches at member
    split at member
    · cases member
    · next room =>
      rw [mem_singleton] at member
      rw [member]
      exact Nat.not_le.mp room
  · intro index place member
    unfold allEPBrokenTouches at member
    split at member
    · cases member
    · next inside =>
      rw [length_epVector] at inside member
      rw [mem_cons, mem_range] at member
      omega

theorem compare_spec {info : SerConnInfo} (compared : epInfo.compare info = true) :
    info.index = epInfo.arrivals.length ∧ (epInfo.AgreesInRest info → info.common = epInfo.connInfo.common) := by
  simp only [compare, Bool.and_eq_true, beq_iff_eq, length_epVector] at compared
  obtain ⟨⟨⟨⟨⟨⟨⟨version, channelId⟩, policy⟩, index⟩, linkCount⟩, cbType⟩, clientGroup⟩, serverGroup⟩ := compared
  refine ⟨index, fun ⟨total, multiRail, driverSize, mode, _⟩ => ?_⟩
  simp only [SerConnInfo.common, SerConnInfo.mk.injEq, true_and]
  exact ⟨version.symm, channelId.symm, multiRail, driverSize, total, policy.symm,
    InnerConnectOptions.ext clientGroup.symm serverGroup.symm linkCount.symm mode cbType.symm⟩

/-- A connection that passes the comparison and agrees in the rest keeps the record as it should be. -/
theorem Sound.addEp (sound : epInfo.Sound agreed arrived) (uuid : arrival.uuid = epInfo.uuid)
    (member : arrival ∈ arrived)
    (compared : epInfo.compare arrival.info = true)
    (careful : agreed → epInfo.AgreesInRest arrival.info) : (epInfo.addEp arrival).1.Sound agreed arrived := by
  obtain ⟨index, common⟩ := compare_spec compared
  unfold HcomConnectingEpInfo.addEp
  rw [length_epVector]
  split
  · exact sound
  · next room =>
    refine ⟨?_, ?_, ?_, fun holds => ⟨?_, ?_, ?_⟩⟩
    · exact Nat.lt_of_lt_of_le sound.nonempty (by simp)
    · simp only [length_append, length_singleton, channelEpMaxNum]
      omega
    · exact forall_mem_append.mpr ⟨sound.came, forall_mem_singleton.mpr ⟨member, uuid⟩⟩
    · intro i other place
      rw [getElem?_append] at place
      split at place
      · exact (sound.agreed holds).indices i other place
      · next behind =>
        obtain ⟨small, rfl⟩ := List.getElem?_eq_some_iff.mp place
        rw [length_singleton] at small
        rw [getElem_singleton]
        omega
    · exact forall_mem_append.mpr ⟨(sound.agreed holds).agree, forall_mem_singleton.mpr (common (careful holds))⟩
    · have below := (careful holds).2.2.2.2
      rw [(careful holds).1, index] at below
      rw [length_append]
      exact below

end HcomConnectingEpInfo

namespace HcomServiceImp

/-! ## The records and who refers to them -/

/-- The record of the handler has its connection; a handler that has claimed it found all of them there. -/
structure CallOk (agreed : Prop) (records : List HcomConnectingEpInfo) (call : Handler) : Prop where
  member : ∃ epInfo, records[call.record]? = some epInfo ∧ call.arrival ∈ epInfo.arrivals
  full : agreed → call.stage = .claimed → ∀ epInfo, records[call.record]? = some epInfo →
    epInfo.arrivals.length = epInfo.connInfo.totalLinkCount

theorem CallOk.arrival_mem (ok : CallOk agreed records call)
    (there : records[call.record]? = some epInfo) : call.arrival ∈ epInfo.arrivals := by
  obtain ⟨found, foundThere, member⟩ := ok.member
  cases there.symm.trans foundThere
  exact member

structure Inv (agreed : Prop) (service : HcomServiceImp) : Prop where
  records : ∀ epInfo ∈ service.records, epInfo.Sound agreed service.arrived
  entries : ∀ uuid record, service.newEpMap uuid = some record →
    ∃ epInfo, service.records[record]? = some epInfo ∧ epInfo.uuid = uuid
  calls : ∀ call ∈ service.handlers, CallOk agreed service.records call
  channels : agreed → ∀ channel ∈ service.channels, channel.Right service.arrived
  once : (service.channels.map (·.uuid)).Nodup
  touched : ∀ place ∈ service.touched, place < channelEpMaxNum

theorem new_inv : new.Inv agreed := ⟨nofun, nofun, nofun, fun _ => nofun, .nil, nofun⟩

theorem Inv.addArrived (inv : service.Inv agreed) {arrival : Arrival} :
    Inv agreed { service with arrived := arrival :: service.arrived } :=
  { inv with
    records := fun epInfo member => (inv.records epInfo member).mono
    channels := fun holds channel member =>
      { inv.channels holds channel member with
        came := fun a aMember =>
          have came := (inv.channels holds channel member).came a aMember
          ⟨.tail _ came.1, came.2⟩ } }

section SetRecord

variable {records : List HcomConnectingEpInfo} {grown : HcomConnectingEpInfo}

theorem CallOk.set (ok : CallOk agreed records call) (there : records[record]? = some epInfo)
    (grows : epInfo.Grows grown) (sound : grown.Sound agreed arrived) :
    CallOk agreed (records.set record grown) call := by
  obtain ⟨more, arrivals⟩ := grows.arrivals
  obtain ⟨inside, -⟩ := List.getElem?_eq_some_iff.mp there
  by_cases same : call.record = record
  · have now : (records.set record grown)[call.record]? = some grown := by
      rw [same, getElem?_set_self inside]
    refine ⟨⟨grown, now, ?_⟩, fun holds claimed other otherThere => ?_⟩
    · rw [arrivals]
      exact mem_append_left _ (ok.arrival_mem (same ▸ there))
    · rw [now, Option.some.injEq] at otherThere
      subst otherThere
      -- a full record cannot get more connections
      have full := ok.full holds claimed epInfo (same ▸ there)
      have size := (sound.agreed holds).size
      have longer : epInfo.arrivals.length ≤ grown.arrivals.length := by
        rw [arrivals, length_append]
        omega
      rw [grows.connInfo] at size ⊢
      omega
  · have unchanged : (records.set record grown)[call.record]? = records[call.record]? :=
      getElem?_set_ne (Ne.symm same)
    exact ⟨unchanged ▸ ok.member, fun holds claimed => unchanged ▸ ok.full holds claimed⟩

/-- A record may grow while it stays sound. -/
theorem Inv.setRecord (inv : service.Inv agreed) (there : service.records[record]? = some epInfo)
    (grows : epInfo.Grows grown) (sound : grown.Sound agreed service.arrived) :
    Inv agreed { service with records := service.records.set record grown } where
  records := by
    intro other member
    rcases mem_or_eq_of_mem_set member with old | rfl
    · exact inv.records other old
    · exact sound
  entries := by
    intro uuid entry mapped
    obtain ⟨old, oldThere, uuidEq⟩ := inv.entries uuid entry mapped
    obtain ⟨inside, -⟩ := List.getElem?_eq_some_iff.mp there
    by_cases same : record = entry
    · subst same
      rw [there, Option.some.injEq] at oldThere
      subst oldThere
      exact ⟨grown, getElem?_set_self inside, grows.uuid.trans uuidEq⟩
    · exact ⟨old, (getElem?_set_ne same).trans oldThere, uuidEq⟩
  calls := fun call member => (inv.calls call member).set there grows sound
  channels := inv.channels
  once := inv.once
  touched := inv.touched

end SetRecord

/-! ## The steps -/

theorem Inv.touch {places : List Nat} (inv : service.Inv agreed) (small : ∀ place ∈ places, place < channelEpMaxNum) :
    Inv agreed { service with touched := places ++ service.touched } :=
  { inv with touched := forall_mem_append.mpr ⟨small, inv.touched⟩ }

theorem Inv.addCall (inv : service.Inv agreed) (ok : CallOk agreed service.records call) :
    Inv agreed { service with handlers := service.handlers ++ [call] } :=
  { inv with calls := forall_mem_append.mpr ⟨inv.calls, forall_mem_singleton.mpr ok⟩ }

theorem Inv.setStage (inv : service.Inv agreed)
    (ok : CallOk agreed service.records { call with stage }) : (service.setStage handler call stage).Inv agreed :=
  { inv with
    calls := fun other member => (mem_or_eq_of_mem_set member).elim (inv.calls other) fun new => new ▸ ok }

/-- A handler that does not claim the record needs nothing but its connection there. -/
theorem CallOk.later (ok : CallOk agreed records call)
    (unclaimed : stage ≠ .claimed) : CallOk agreed records { call with stage } :=
  ⟨ok.member, fun _ claimed => absurd claimed unclaimed⟩

section

variable (inv : service.Inv agreed)
include inv

theorem Inv.unmap {uuid : Uuid} : Inv agreed { service with newEpMap := update service.newEpMap uuid none } := by
  refine { inv with entries := fun other record mapped => ?_ }
  dsimp only at mapped
  by_cases same : other = uuid
  · subst same
    rw [update_self] at mapped
    cases mapped
  · rw [update_of_ne same] at mapped
    exact inv.entries other record mapped

theorem Inv.newRecord (member : arrival ∈ service.arrived)
    (checked : serConnInfoCheck arrival.info = true) (careful : agreed → arrival.info.index = 0) :
    Inv agreed { service with
      newEpMap := update service.newEpMap arrival.uuid (some service.records.length)
      records := service.records ++ [.new arrival]
      handlers := service.handlers ++ [⟨arrival, service.records.length, .emplaced⟩]
      touched := 0 :: service.touched } := by
  have last : (service.records ++ [HcomConnectingEpInfo.new arrival])[service.records.length]? = some (.new arrival) :=
    getElem?_concat_length
  have before : ∀ (record : Nat) (epInfo : HcomConnectingEpInfo), service.records[record]? = some epInfo →
      (service.records ++ [HcomConnectingEpInfo.new arrival])[record]? = some epInfo := by
    intro record epInfo there
    obtain ⟨inside, -⟩ := List.getElem?_eq_some_iff.mp there
    rw [getElem?_append_left inside, there]
  refine ⟨forall_mem_append.mpr ⟨inv.records, forall_mem_singleton.mpr ?_⟩, fun uuid record mapped => ?_,
    forall_mem_append.mpr ⟨fun call old => ?_, forall_mem_singleton.mpr ?_⟩, inv.channels, inv.once,
    forall_mem_cons.mpr ⟨by decide, inv.touched⟩⟩
  · have one : 1 ≤ channelEpMaxNum := by decide
    refine ⟨Nat.one_pos, one, forall_mem_singleton.mpr ⟨member, rfl⟩,
      fun holds => ⟨fun i other place => ?_, forall_mem_singleton.mpr rfl, ?_⟩⟩
    · obtain ⟨small, rfl⟩ := List.getElem?_eq_some_iff.mp place
      obtain rfl : i = 0 := Nat.lt_one_iff.mp small
      exact careful holds
    · have below : arrival.info.index < arrival.info.totalLinkCount := by
        simp only [serConnInfoCheck, Bool.and_eq_true, Bool.not_eq_true', decide_eq_false_iff_not, Nat.not_le]
          at checked
        exact checked.2
      exact Nat.lt_of_le_of_lt (Nat.zero_le _) below
  · dsimp only at mapped
    by_cases same : uuid = arrival.uuid
    · subst same
      rw [update_self, Option.some.injEq] at mapped
      subst mapped
      exact ⟨_, last, rfl⟩
    · rw [update_of_ne same] at mapped
      obtain ⟨epInfo, there, uuidEq⟩ := inv.entries uuid record mapped
      exact ⟨epInfo, before _ _ there, uuidEq⟩
  · obtain ⟨⟨epInfo, there, inRecord⟩, full⟩ := inv.calls call old
    refine ⟨⟨epInfo, before _ _ there, inRecord⟩, fun holds claimed other otherThere => ?_⟩
    rw [before _ _ there] at otherThere
    exact full holds claimed other (there.trans otherThere)
  · exact ⟨⟨_, last, mem_singleton_self _⟩, fun _ claimed => nomatch claimed⟩

theorem Inv.emplaceNewEndpoint (member : arrival ∈ service.arrived)
    (careful : agreed → service.Careful (.arrive arrival)) : (service.emplaceNewEndpoint arrival).Inv agreed := by
  unfold HcomServiceImp.emplaceNewEndpoint
  cases mapped : service.newEpMap arrival.uuid with
  | none =>
    simp only [Careful, connecting, mapped] at careful
    cases checked : serConnInfoCheck arrival.info with
    | false => exact inv
    | true => exact inv.newRecord member checked fun holds => careful holds checked
  | some record =>
    obtain ⟨epInfo, there, uuidEq⟩ := inv.entries _ _ mapped
    simp only [Careful, connecting, mapped, Option.bind_some, there] at careful
    simp only [there]
    cases compared : epInfo.compare arrival.info with
    | false => exact inv
    | true =>
      have sound := inv.records epInfo (mem_of_getElem? there)
      have grownSound := sound.addEp uuidEq.symm member compared fun holds => careful holds compared
      have joined := (inv.setRecord there HcomConnectingEpInfo.addEp_grows grownSound).touch
        (HcomConnectingEpInfo.touches_lt sound).1
      cases added : (epInfo.addEp arrival).2 with
      | false => exact joined
      | true =>
        obtain ⟨inside, -⟩ := List.getElem?_eq_some_iff.mp there
        refine joined.addCall ⟨⟨_, getElem?_set_self inside, HcomConnectingEpInfo.mem_addEp added⟩, fun _ claimed => ?_⟩
        cases claimed

theorem Inv.checkLast (there : service.records[call.record]? = some epInfo)
    (ok : CallOk agreed service.records call) : (service.checkLast handler call epInfo).Inv agreed := by
  have stored : Inv agreed { service with
      upCtx := update service.upCtx call.arrival.ep (some (call.record, call.arrival.info.index % 2 ^ 5)) } :=
    { inv with }
  unfold HcomServiceImp.checkLast
  split
  · exact stored.setStage (ok.later nofun)
  · next enough =>
    split
    · exact stored.setStage (ok.later nofun)
    · have sound := inv.records epInfo (mem_of_getElem? there)
      obtain ⟨claimedSound, grows⟩ := sound.flagged epInfo.nepBroken .newChannel
      have claimed := stored.setRecord there grows claimedSound
      obtain ⟨inside, -⟩ := List.getElem?_eq_some_iff.mp there
      have now : (service.records.set call.record { epInfo with connState := .newChannel })[call.record]? =
          some { epInfo with connState := .newChannel } := getElem?_set_self inside
      have member := ok.arrival_mem there
      refine claimed.setStage ⟨⟨_, now, member⟩, fun holds _ other otherThere => ?_⟩
      rw [now, Option.some.injEq] at otherThere
      subst otherThere
      -- the sizes were compared with what this connection says, on which all agree
      have agreed := sound.agreed holds
      rw [HcomConnectingEpInfo.length_epVector, SerConnInfo.total_eq (agreed.agree _ member)] at enough
      exact Nat.le_antisymm agreed.size (Nat.not_lt.mp enough)

end

/-- The channel that a handler makes of the record it has claimed. -/
theorem channel_right (sound : epInfo.Sound agreed service.arrived) (member : call.arrival ∈ epInfo.arrivals)
    (holds : agreed) (full : epInfo.arrivals.length = epInfo.connInfo.totalLinkCount) :
    ServerChannel.Right service.arrived
      ⟨call.arrival.uuid, call.arrival.info, epInfo.epVector, epInfo.arrivals⟩ := by
  have agreed := sound.agreed holds
  have same := agreed.agree _ member
  refine ⟨full.trans (SerConnInfo.total_eq same).symm, fun other otherMember => ?_,
    fun other otherMember => (agreed.agree other otherMember).trans same.symm, agreed.indices, fun i other place => ?_⟩
  · obtain ⟨came, uuid⟩ := sound.came other otherMember
    exact ⟨came, uuid.trans (sound.came _ member).2.symm⟩
  · rw [HcomConnectingEpInfo.epVector, getElem?_map, place]
    rfl

theorem Inv.serviceNewChannel {init : InitResult} {accepted : Bool} (inv : service.Inv agreed)
    (there : service.records[call.record]? = some epInfo) (ok : CallOk agreed service.records call)
    (claimed : call.stage = .claimed) : (service.serviceNewChannel call epInfo init accepted).Inv agreed ∧
      (service.serviceNewChannel call epInfo init accepted).records = service.records := by
  have sound := inv.records epInfo (mem_of_getElem? there)
  have member := ok.arrival_mem there
  have small : ∀ place ∈ range epInfo.epVector.length, place < channelEpMaxNum := fun place inside =>
    Nat.lt_of_lt_of_le (mem_range.mp inside) (by rw [HcomConnectingEpInfo.length_epVector]; exact sound.size)
  have contexts : Inv agreed { service with
      upCtx := fun ep => if ep ∈ epInfo.epVector then none else service.upCtx ep } := { inv with }
  have touched := contexts.touch small
  unfold HcomServiceImp.serviceNewChannel
  split
  · exact ⟨inv, rfl⟩
  · cases init with
    | failed => exact ⟨inv, rfl⟩
    | epBroken => exact ⟨touched, rfl⟩
    | established =>
      dsimp only
      split
      · next broken => cases broken
      · split
        · exact ⟨touched, rfl⟩
        · next fresh =>
          split
          · exact ⟨touched, rfl⟩
          · refine ⟨{ touched with channels := fun holds channel channelMember => ?_, once := ?_ }, rfl⟩
            · rcases mem_cons.mp channelMember with rfl | old
              · exact channel_right sound member holds (ok.full holds claimed epInfo there)
              · exact inv.channels holds channel old
            · rw [map_cons, nodup_cons]
              refine ⟨fun duplicate => fresh ?_, inv.once⟩
              obtain ⟨channel, old, uuid⟩ := mem_map.mp duplicate
              exact any_eq_true.mpr ⟨channel, old, beq_iff_eq.mpr uuid⟩

theorem Inv.serviceEndPointBroken (inv : service.Inv agreed) {ep : Nat} :
    (service.serviceEndPointBroken ep).Inv agreed := by
  unfold HcomServiceImp.serviceEndPointBroken
  split
  · exact inv
  · next record epIdx _ =>
    split
    · exact inv
    · next epInfo there =>
      have sound := inv.records epInfo (mem_of_getElem? there)
      obtain ⟨nepBroken, connState, marked⟩ := @HcomConnectingEpInfo.allEPBroken_fields epInfo epIdx
      obtain ⟨markedSound, grows⟩ := sound.flagged nepBroken connState
      rw [← marked] at markedSound grows
      have changed := (inv.setRecord there grows markedSound).touch ((HcomConnectingEpInfo.touches_lt sound).2 epIdx)
      exact { changed with }

theorem Inv.step (inv : service.Inv agreed) {event : AssemblyStep} (careful : agreed → service.Careful event) :
    (service.step event).Inv agreed := by
  cases event with
  | arrive arrival => exact inv.addArrived.emplaceNewEndpoint (.head _) careful
  | check handler =>
    unfold HcomServiceImp.step
    dsimp only
    split
    · exact inv
    · next call callThere =>
      split
      · exact inv
      · next epInfo there =>
        exact guarded inv fun _ => inv.checkLast there (inv.calls call (mem_of_getElem? callThere))
  | build handler init accepted =>
    unfold HcomServiceImp.step
    dsimp only
    split
    · exact inv
    · next call callThere =>
      split
      · exact inv
      · next epInfo there =>
        refine guarded inv fun claimed => ?_
        have ok := inv.calls call (mem_of_getElem? callThere)
        obtain ⟨made, records⟩ := @Inv.serviceNewChannel _ _ _ _ init accepted inv there ok claimed
        refine made.setStage ?_
        rw [records]
        exact ok.later nofun
  | finish handler =>
    unfold HcomServiceImp.step
    dsimp only
    split
    · exact inv
    · next call callThere =>
      refine guarded inv fun _ => ?_
      have ok : CallOk agreed service.records { call with stage := .returned } :=
        (inv.calls call (mem_of_getElem? callThere)).later nofun
      exact (inv.setStage ok).unmap
  | broken ep => exact inv.serviceEndPointBroken
  | erase record =>
    unfold HcomServiceImp.step
    dsimp only
    split
    · exact inv
    · split
      · exact { inv.unmap with }
      · exact inv

/-- If the peers are careful, every channel is made as it should be. -/
theorem channels_right_of_careful (run : Run step Careful new service) : service.Right := by
  have inv : service.Inv True :=
    run.invariant new_inv fun state event inv careful => inv.step fun _ => careful
  exact ⟨inv.channels trivial, inv.once, inv.touched⟩

/-- Connection `index` of the channel 7 of a peer, which says how many there are. -/
def link (index total : Nat) : Arrival := ⟨1, 100 + index, ⟨0, 7, 7, index, 0, 1, total, 0, ⟨0, 0, 2, 0, 0⟩⟩⟩

/-- Two connections whose handlers run side by side. -/
def twoLinks : List AssemblyStep :=
  [.arrive (link 0 2), .arrive (link 1 2), .check 1, .check 0, .build 1 .established true, .finish 1]

theorem right_twoLinks : (twoLinks.foldl step new).channels.map (·.epArr) = [[100, 101]] ∧
    (twoLinks.foldl step new).Right :=
  ⟨by decide, channels_right_of_careful (Run.ofList (by decide))⟩

/-- The second connection says that there are two, where the first said four. -/
def shortened : List AssemblyStep :=
  [.arrive (link 0 4), .check 0, .arrive (link 1 2), .check 1, .build 1 .established true, .finish 1]

theorem shortened_not_right : Run step (fun _ _ => True) new (shortened.foldl step new) ∧
    ¬ (shortened.foldl step new).Right := by
  refine ⟨Run.ofList (by decide), fun right => ?_⟩
  have made : (⟨(1, 7), (link 1 2).info, [100, 101], [link 0 4, link 1 2]⟩ : ServerChannel) ∈
      (shortened.foldl step new).channels := by decide
  exact absurd ((right.channels _ made).agree (link 0 4) (by decide)) (by decide)

end HcomServiceImp

end UbsComm.Service
