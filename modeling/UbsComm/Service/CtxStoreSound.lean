import UbsComm.Service.CtxStore

/-! # Contexts in the store

The invariant ties every word of a bucket, and every entry of the map, to the context that was
stored there, and every number fetched to one call or one context. -/

namespace UbsComm.Service.CtxStore

open Library List Function

variable {store : CtxStore} {thread : Nat} {call : StoreCall} {put : Put} {asked : SeqNo}

/-- The number that the call has fetched and not used yet. -/
def heldTicket : StoreCall → Option Nat
  | .swap _ _ _ ticket | .emplace _ _ ticket => some ticket
  | .idle | .fetch .. | .refetch .. | .remove .. => none

/-- A number that was fetched, and not for a context that is or was in the store. -/
def Unused (store : CtxStore) (ticket : Nat) : Prop := ticket < store.index ∧ ∀ put ∈ store.puts, put.ticket ≠ ticket

/-- A value that a call is about to store: some version over its context. -/
def Carries (ctx : Pointer) (value : Nat) : Prop := ctx ≠ 0 ∧ ∃ tag, value = pack versionBit tag ctx

def CallOk (store : CtxStore) : StoreCall → Prop
  | .idle => True
  | .fetch _ ctx value | .refetch _ ctx value => Carries ctx value
  | .swap _ ctx value ticket | .emplace ctx value ticket => Carries ctx value ∧ store.Unused ticket
  | .remove asked value seen => asked.fromFlat = true ∧ value = (seen.map (·.ctx.val)).getD 0

def wordOf : Option Put → Nat
  | none => 0
  | some put => pack versionBit put.seqNo.version put.ctx

/-- The entry of the map: the version over the context does not matter there. -/
def EntryOf : Option Put → Option Nat → Prop
  | none, entry => entry = none
  | some put, entry => ∃ tag, entry = some (pack versionBit tag put.ctx)

structure PutOk (shift index : Nat) (put : Put) : Prop where
  ticket : put.ticket < index
  seqNo : put.seqNo = numberOf shift put.ticket put.seqNo.fromFlat
  ctx : put.ctx ≠ 0

structure Sound (store : CtxStore) : Prop where
  shift : store.shift ≤ 24
  calls : ∀ thread, store.CallOk (store.calls thread)
  held : ∀ thread other ticket, heldTicket (store.calls thread) = some ticket →
    heldTicket (store.calls other) = some ticket → thread = other
  puts : ∀ put ∈ store.puts, PutOk store.shift store.index put
  tickets : ∀ put ∈ store.puts, ∀ other ∈ store.puts, put.ticket = other.ticket → put = other
  stored : ∀ place put, store.stored place = some put →
    put ∈ store.puts ∧ place = put.seqNo.place ∧ ∀ take ∈ store.removals, take.put ≠ some put
  kept : ∀ put ∈ store.puts, store.stored put.seqNo.place = some put ∨ ∃ take ∈ store.removals, take.put = some put
  words : ∀ bucket, store.flat bucket = wordOf (store.stored (.flat bucket))
  entries : ∀ key, EntryOf (store.stored (.hash key)) (store.hash key)
  removed : ∀ take ∈ store.removals, take.Exact ∧ ∃ put ∈ store.puts, take.put = some put
  once : (store.removals.map (·.put)).Nodup
  found : ∀ take ∈ store.lookups, take.Exact

/-! ## Words and numbers -/

theorem ctx_small {ctx : Pointer} : ctx.val < 2 ^ versionBit := ctx.isLt

theorem pack_and_ptrMask (tag : Nat) (ctx : Pointer) : pack versionBit tag ctx &&& ptrMask = ctx.val :=
  pack_and_mask ctx_small

theorem wordOf_and_ptrMask {entry : Option Put} : wordOf entry &&& ptrMask = (entry.map (·.ctx.val)).getD 0 := by
  cases entry with
  | none => exact Nat.zero_and _
  | some put => exact pack_and_ptrMask _ _

variable {ctx : Pointer} {value returned : Nat}

theorem ctx_val_ne_zero (notNull : ctx ≠ 0) : ctx.val ≠ 0 := fun zero => notNull (Fin.ext zero)

theorem Carries.tag (carries : Carries ctx value) {version : Nat} : Carries ctx (pack versionBit version value) := by
  obtain ⟨notNull, tag, rfl⟩ := carries
  exact ⟨notNull, version ||| tag, pack_pack⟩

theorem Carries.eq_pack {value version : Nat} (carries : Carries ctx value)
    (tagged : value >>> versionBit = version) : value = pack versionBit version ctx := by
  obtain ⟨-, tag, rfl⟩ := carries
  rw [pack_shiftRight ctx_small] at tagged
  rw [tagged]

theorem PutOk.request {shift index : Nat} (ok : PutOk shift index put) : put.seqNo.request = put.seqNo := by
  rw [ok.seqNo]
  rfl

section

variable (sound : store.Sound)
include sound

theorem Sound.callOk (is : store.calls thread = call) : store.CallOk call := is ▸ sound.calls thread

theorem Sound.word_ne_zero {bucket : Nat} (stored : store.stored (.flat bucket) = some put) :
    store.flat bucket &&& ptrMask ≠ 0 := by
  rw [sound.words, wordOf_and_ptrMask, stored]
  exact ctx_val_ne_zero (sound.puts put (sound.stored _ put stored).1).ctx

/-- What is stored at the place of a number, with the number's version if it is a bucket, was
stored under that number. -/
theorem Sound.seqNo_of_stored (stored : store.stored asked.place = some put)
    (version : asked.fromFlat = true → put.seqNo.version = asked.version) : put.seqNo = asked.request := by
  obtain ⟨mem, place, -⟩ := sound.stored _ put stored
  have request := (sound.puts put mem).request
  cases flat : asked.fromFlat with
  | true =>
    cases flatPut : put.seqNo.fromFlat with
    | true =>
      simp only [SeqNo.place, flat, flatPut, if_true, Place.flat.injEq] at place
      rw [← request]
      simp only [SeqNo.request, SeqNo.mk.injEq, and_true]
      exact ⟨place.symm, version flat, flatPut.trans flat.symm⟩
    | false => simp [SeqNo.place, flat, flatPut] at place
  | false =>
    cases flatPut : put.seqNo.fromFlat with
    | true => simp [SeqNo.place, flat, flatPut] at place
    | false =>
      simp only [SeqNo.place, flat, flatPut, Bool.false_eq_true, if_false, Place.hash.injEq] at place
      rw [← request, place]

/-! ## Moves of a call -/

theorem Sound.goto (ok : store.CallOk call) (fresh : ∀ ticket, heldTicket call = some ticket → ∀ other, other ≠ thread →
      heldTicket (store.calls other) ≠ some ticket) : (store.goto thread call).Sound :=
  { sound with
    calls := (forall_update_iff store.calls (p := fun _ call => store.CallOk call)).mpr
      ⟨ok, fun other _ => sound.calls other⟩
    held := by
      intro one two ticket first second
      simp only [CtxStore.goto, update_apply] at first second
      split at first <;> split at second
      next isOne isTwo => rw [isOne, isTwo]
      next isTwo => exact absurd second (fresh ticket first two isTwo)
      next isOne _ => exact absurd first (fresh ticket second one isOne)
      next => exact sound.held one two ticket first second }

theorem Sound.goto_none (ok : store.CallOk call) (none : heldTicket call = none) : (store.goto thread call).Sound :=
  sound.goto ok fun _ held => nomatch none.symm.trans held

theorem Sound.goto_same (ok : store.CallOk call)
    (same : heldTicket call = heldTicket (store.calls thread)) : (store.goto thread call).Sound :=
  sound.goto ok fun ticket held other ne heldByOther =>
    ne (sound.held other thread ticket heldByOther (same ▸ held))

end

theorem CallOk.fetched (ok : store.CallOk call) : CallOk { store with index := store.index + 1 } call := by
  cases call with
  | idle | fetch | refetch | remove => exact ok
  | swap | emplace => exact ⟨ok.1, Nat.lt_succ_of_lt ok.2.1, ok.2.2⟩

section

variable (sound : store.Sound)
include sound

theorem Sound.fetched : Sound { store with index := store.index + 1 } :=
  { sound with
    calls := fun thread => (sound.calls thread).fetched
    puts := fun put mem => { sound.puts put mem with ticket := Nat.lt_succ_of_lt (sound.puts put mem).ticket } }

theorem Sound.held_lt {ticket : Nat} (held : heldTicket (store.calls thread) = some ticket) : ticket < store.index := by
  have ok := sound.calls thread
  generalize store.calls thread = call at held ok
  cases call with
  | idle | fetch | refetch | remove => cases held
  | swap | emplace =>
    cases held
    exact ok.2.1

theorem Sound.toSwap {tries value : Nat} (carries : Carries ctx value) :
    (store.toSwap thread tries ctx value).Sound := by
  refine sound.fetched.goto ⟨carries.tag, Nat.lt_succ_self _, fun put mem => ?_⟩
    fun ticket held other _ heldByOther => ?_
  · exact (sound.puts put mem).ticket.ne
  · cases held
    exact Nat.lt_irrefl _ (sound.held_lt heldByOther)

/-! ## A context goes in -/

/-- The context of a call that holds a number is put under it, at a place that was empty. -/
theorem Sound.keep {flat : Nat → Nat} {hash : SeqNo → Option Nat}
    (held : heldTicket (store.calls thread) = some put.ticket) (unused : store.Unused put.ticket)
    (ok : PutOk store.shift store.index put) (empty : store.stored put.seqNo.place = none)
    (words : ∀ bucket, flat bucket = wordOf (update store.stored put.seqNo.place (some put) (.flat bucket)))
    (entries : ∀ key, EntryOf (update store.stored put.seqNo.place (some put) (.hash key)) (hash key)) :
    ({ store with flat, hash }.keep thread put).Sound := by
  have notListed : put ∉ store.puts := fun mem => unused.2 put mem rfl
  have notRemoved : ∀ take ∈ store.removals, take.put ≠ some put := by
    intro take removed same
    obtain ⟨-, other, mem, isOther⟩ := sound.removed take removed
    exact notListed (Option.some.inj (same.symm.trans isOther) ▸ mem)
  have done : (store.goto thread .idle).Sound := sound.goto_none trivial rfl
  have free : ∀ other, heldTicket ((store.goto thread .idle).calls other) ≠ some put.ticket :=
    (forall_update_iff store.calls (p := fun _ call => heldTicket call ≠ some put.ticket)).mpr
      ⟨nofun, fun other ne heldByOther => ne (sound.held other thread _ heldByOther held)⟩
  exact
    { done with
      calls := by
        intro other
        have callOk := done.calls other
        have notPut := free other
        show CallOk _ ((store.goto thread .idle).calls other)
        generalize (store.goto thread .idle).calls other = call at callOk notPut
        cases call with
        | idle | fetch | refetch | remove => exact callOk
        | swap | emplace =>
          exact ⟨callOk.1, callOk.2.1, forall_mem_cons.mpr ⟨fun same => notPut (congrArg some same.symm), callOk.2.2⟩⟩
      puts := forall_mem_cons.mpr ⟨ok, sound.puts⟩
      tickets := by
        refine forall_mem_cons.mpr ⟨forall_mem_cons.mpr ⟨fun _ => rfl, ?_⟩, fun one mem => forall_mem_cons.mpr ⟨?_, ?_⟩⟩
        · exact fun two mem same => absurd same.symm (unused.2 two mem)
        · exact fun same => absurd same (unused.2 one mem)
        · exact sound.tickets one mem
      stored := (forall_update_iff store.stored (p := fun place entry => ∀ other, entry = some other →
          other ∈ put :: store.puts ∧ place = other.seqNo.place ∧ ∀ take ∈ store.removals, take.put ≠ some other)).mpr
        ⟨fun other same => by
          cases same
          exact ⟨mem_cons_self, rfl, notRemoved⟩, fun place _ other same => by
          obtain ⟨mem, isPlace, stays⟩ := sound.stored place other same
          exact ⟨mem_cons_of_mem _ mem, isPlace, stays⟩⟩
      kept := by
        refine forall_mem_cons.mpr ⟨.inl (update_self ..), fun other mem => ?_⟩
        refine (sound.kept other mem).imp_left fun stored => ?_
        have ne : other.seqNo.place ≠ put.seqNo.place := by
          intro same
          rw [same, empty] at stored
          cases stored
        exact (update_of_ne ne ..).trans stored
      words
      entries
      removed := fun take removed => by
        obtain ⟨exact, other, mem, isOther⟩ := sound.removed take removed
        exact ⟨exact, other, mem_cons_of_mem _ mem, isOther⟩ }

/-! ## A context goes out -/

/-- What is stored at the place of the number asked for is taken out and returned. -/
theorem Sound.takeOut {flat : Nat → Nat} {hash : SeqNo → Option Nat}
    (stored : store.stored asked.place = some put) (seqNo : put.seqNo = asked.request) (ctx : put.ctx.val = returned)
    (words : ∀ bucket, flat bucket = wordOf (update store.stored asked.place none (.flat bucket)))
    (entries : ∀ key, EntryOf (update store.stored asked.place none (.hash key)) (hash key)) :
    ({ store with flat, hash }.takeOut asked returned).Sound := by
  obtain ⟨mem, place, stays⟩ := sound.stored _ put stored
  have log : ({ store with flat, hash }.takeOut asked returned).removals =
      ⟨asked, returned, some put⟩ :: store.removals := by
    rw [← stored]
    rfl
  exact
    { sound with
      stored := by
        rw [log]
        refine (forall_update_iff store.stored (p := fun place entry => ∀ other, entry = some other →
          other ∈ store.puts ∧ place = other.seqNo.place ∧
            ∀ take ∈ (⟨asked, returned, some put⟩ :: store.removals : List Take), take.put ≠ some other)).mpr
          ⟨nofun, fun elsewhere ne other same => ?_⟩
        obtain ⟨otherListed, isPlace, otherStays⟩ := sound.stored elsewhere other same
        refine ⟨otherListed, isPlace, forall_mem_cons.mpr ⟨fun samePut => ne ?_, otherStays⟩⟩
        rw [isPlace, ← Option.some.inj samePut, place]
      kept := by
        intro other otherListed
        rw [log]
        by_cases isPut : other = put
        · exact .inr ⟨_, mem_cons_self, congrArg some isPut.symm⟩
        · rcases sound.kept other otherListed with there | ⟨take, removed, isOther⟩
          · refine .inl ?_
            have ne : other.seqNo.place ≠ asked.place := fun same =>
              isPut (Option.some.inj ((same ▸ there).symm.trans stored))
            exact (update_of_ne ne ..).trans there
          · exact .inr ⟨take, mem_cons_of_mem _ removed, isOther⟩
      words
      entries
      removed := by
        rw [log]
        exact forall_mem_cons.mpr ⟨⟨⟨put, rfl, seqNo, ctx⟩, put, mem, rfl⟩, sound.removed⟩
      once := by
        rw [log]
        refine nodup_cons.mpr ⟨fun again => ?_, sound.once⟩
        obtain ⟨take, removed, same⟩ := mem_map.mp again
        exact stays take removed same }

/-! ## Steps -/

theorem Sound.words_update {bucket : Nat} (entry : Option Put) (other : Nat) :
    update store.flat bucket (wordOf entry) other =
      wordOf (update store.stored (.flat bucket) entry (.flat other)) := by
  by_cases same : other = bucket
  · rw [same, update_self, update_self]
  · rw [update_of_ne same, update_of_ne (fun equal => same (Place.flat.inj equal))]
    exact sound.words other

theorem Sound.words_other {key : SeqNo} {entry : Option Put} (bucket : Nat) :
    store.flat bucket = wordOf (update store.stored (.hash key) entry (.flat bucket)) :=
  (sound.words bucket).trans (congrArg wordOf (update_of_ne (by simp) ..).symm)

theorem Sound.entries_other {bucket : Nat} {entry : Option Put} (key : SeqNo) :
    EntryOf (update store.stored (.flat bucket) entry (.hash key)) (store.hash key) := by
  exact sound.entries key

theorem Sound.entries_update {key : SeqNo} {entry : Option Put} {value : Option Nat}
    (holds : EntryOf entry value) (other : SeqNo) :
    EntryOf (update store.stored (.hash key) entry (.hash other)) (update store.hash key value other) := by
  by_cases same : other = key
  · rwa [same, update_self, update_self]
  · rw [update_of_ne same, update_of_ne (fun equal => same (Place.hash.inj equal))]
    exact sound.entries other

theorem stored_none_of_word {bucket : Nat} (zero : store.flat bucket = 0) : store.stored (.flat bucket) = none := by
  cases stored : store.stored (.flat bucket) with
  | none => rfl
  | some put => exact absurd (by rw [zero, Nat.zero_and]) (sound.word_ne_zero stored)

end

theorem place_numberOf_flat (small : store.shift ≤ 24) (ticket : Nat) :
    (numberOf store.shift ticket true).place = .flat (bucketOf store.shift ticket) := by
  rw [← realSeq_numberOf small true]
  rfl

section

variable (sound : store.Sound)
include sound

theorem Sound.swap {tries value ticket : Nat}
    (call : store.calls thread = .swap tries ctx value ticket) (empty : store.flat (bucketOf store.shift ticket) = 0)
    (plain : value >>> versionBit = versionOf store.shift ticket) :
    ({ store with flat := update store.flat (bucketOf store.shift ticket) value }.keep thread
        ⟨ticket, ctx, numberOf store.shift ticket true⟩).Sound := by
  obtain ⟨carries, unused⟩ := sound.callOk call
  have place := place_numberOf_flat sound.shift ticket
  have word : value = wordOf (some ⟨ticket, ctx, numberOf store.shift ticket true⟩) := by
    rw [wordOf, version_numberOf sound.shift]
    exact carries.eq_pack plain
  refine sound.keep (call ▸ rfl) unused ⟨unused.1, rfl, carries.1⟩ ?_ ?_ ?_
  · rw [place]
    exact stored_none_of_word sound empty
  · rw [word, place]
    exact sound.words_update _
  · exact sound.entries_other

theorem Sound.emplace {value ticket : Nat}
    (call : store.calls thread = .emplace ctx value ticket)
    (empty : store.hash (numberOf store.shift ticket false) = none) :
    ({ store with hash := update store.hash (numberOf store.shift ticket false) (some value) }.keep thread
        ⟨ticket, ctx, numberOf store.shift ticket false⟩).Sound := by
  obtain ⟨carries, unused⟩ := sound.callOk call
  have place : (numberOf store.shift ticket false).place = .hash (numberOf store.shift ticket false) := rfl
  refine sound.keep (call ▸ rfl) unused ⟨unused.1, rfl, carries.1⟩ ?_ ?_ ?_
  · rw [place]
    have entry := sound.entries (numberOf store.shift ticket false)
    cases stored : store.stored (.hash (numberOf store.shift ticket false)) with
    | none => rfl
    | some put =>
      rw [stored, empty] at entry
      obtain ⟨tag, equation⟩ := entry
      cases equation
  · exact sound.words_other
  · obtain ⟨-, tag, isPack⟩ := carries
    exact sound.entries_update ⟨tag, congrArg some isPack⟩

theorem Sound.hash_eq {key : SeqNo} (found : store.hash key = some value) :
    ∃ put, store.stored (.hash key) = some put ∧ put.ctx.val = value &&& ptrMask := by
  have entry := sound.entries key
  cases stored : store.stored (.hash key) with
  | none =>
    rw [stored, found] at entry
    cases entry
  | some put =>
    rw [stored, found] at entry
    obtain ⟨tag, isPack⟩ := entry
    exact ⟨put, rfl, by rw [Option.some.inj isPack, pack_and_ptrMask]⟩

theorem Sound.lookUp (stored : store.stored asked.place = some put)
    (seqNo : put.seqNo = asked.request) (ctx : put.ctx.val = returned) : (store.lookUp asked returned).Sound :=
  { sound with found := forall_mem_cons.mpr ⟨⟨put, stored, seqNo, ctx⟩, sound.found⟩ }

end

theorem place_flat (flat : asked.fromFlat = true) : asked.place = .flat asked.realSeq := if_pos flat

theorem place_hash (hash : asked.fromFlat = false) : asked.place = .hash asked.request :=
  if_neg (Bool.eq_false_iff.mp hash)

section

variable (sound : store.Sound)
include sound

theorem Sound.getBySeqNo
    (steady : asked.fromFlat = true → store.flat asked.realSeq = 0 ∨
      store.flat asked.realSeq >>> versionBit = asked.version) :
    (store.getBySeqNo asked).Sound := by
  unfold CtxStore.getBySeqNo
  cases flat : asked.fromFlat with
  | true =>
    rw [if_pos rfl]
    split
    next => exact sound
    next present =>
      have notEmpty : store.flat asked.realSeq &&& ptrMask ≠ 0 := fun zero => present (.inr zero)
      have word := sound.words asked.realSeq
      rw [← place_flat flat] at word
      cases stored : store.stored asked.place with
      | none =>
        rw [word, stored] at notEmpty
        exact absurd rfl notEmpty
      | some put =>
        rw [stored] at word
        refine sound.lookUp stored (sound.seqNo_of_stored stored fun _ => ?_) ?_
        · rcases steady flat with zero | version
          · rw [zero] at notEmpty
            exact absurd rfl notEmpty
          · rwa [word, wordOf, pack_shiftRight ctx_small] at version
        · rw [word, wordOf, pack_and_ptrMask]
  | false =>
    rw [if_neg Bool.false_ne_true]
    split
    next value found =>
      obtain ⟨put, stored, ctx⟩ := sound.hash_eq found
      rw [← place_hash flat] at stored
      exact sound.lookUp stored (sound.seqNo_of_stored stored fun isFlat => nomatch flat.symm.trans isFlat) ctx
    next => exact sound

theorem Sound.getSeqNoAndRemove {thread : Nat} {asked : SeqNo} : (store.getSeqNoAndRemove thread asked).Sound := by
  unfold CtxStore.getSeqNoAndRemove
  cases flat : asked.fromFlat with
  | true =>
    rw [if_pos rfl]
    split
    next => exact sound
    next =>
      refine sound.goto_none ⟨flat, ?_⟩ rfl
      rw [sound.words, wordOf_and_ptrMask, place_flat flat]
  | false =>
    rw [if_neg Bool.false_ne_true]
    split
    next value found =>
      obtain ⟨put, stored, ctx⟩ := sound.hash_eq found
      rw [← place_hash flat] at stored
      refine sound.takeOut stored
        (sound.seqNo_of_stored stored fun isFlat => nomatch flat.symm.trans isFlat) ctx ?_ ?_
      · rw [place_hash flat]
        exact sound.words_other
      · rw [place_hash flat]
        exact sound.entries_update rfl
    next => exact sound

/-- The bucket that was read is emptied if its word is that of the number and the context read. -/
theorem Sound.remove {seen : Option Put} (call : store.calls thread = .remove asked value seen)
    (same : store.flat asked.realSeq = pack versionBit asked.version value) : (store.advance thread).Sound := by
  obtain ⟨flat, isValue⟩ := sound.callOk call
  have small : value < 2 ^ versionBit := by
    rw [isValue]
    cases seen with
    | none => exact Nat.two_pow_pos _
    | some put => exact ctx_small
  have word := sound.words asked.realSeq
  rw [same, ← place_flat flat] at word
  have done : (store.goto thread .idle).Sound := sound.goto_none trivial rfl
  simp only [CtxStore.advance, call, if_pos same]
  cases stored : store.stored asked.place with
  | none =>
    rw [stored] at word
    have zero : value = 0 := by
      have masked := congrArg (· &&& ptrMask) word
      rwa [ptrMask, wordOf, Nat.zero_and, ← show versionBit = 58 from rfl, pack_and_mask small] at masked
    rw [if_pos zero]
    have unchanged : update store.flat asked.realSeq 0 = store.flat := by
      rw [update_eq_self_iff, sound.words, ← place_flat flat, stored]
      rfl
    rwa [unchanged]
  | some put =>
    rw [stored] at word
    obtain ⟨version, ctx⟩ := pack_inj small ctx_small word
    have notNull := (sound.puts put (sound.stored _ put stored).1).ctx
    rw [if_neg (ctx ▸ ctx_val_ne_zero notNull)]
    refine done.takeOut stored (sound.seqNo_of_stored stored fun _ => version.symm) ctx.symm ?_ ?_
    · rw [place_flat flat]
      exact done.words_update none
    · rw [place_flat flat]
      exact done.entries_other

theorem Sound.advance {thread : Nat} (plain : store.Plain (store.calls thread)) : (store.advance thread).Sound := by
  cases call : store.calls thread with
  | idle => simpa only [CtxStore.advance, call] using sound
  | fetch tries ctx value =>
    simp only [CtxStore.advance, call]
    split
    · exact sound.fetched.goto_none (sound.callOk call) rfl
    · exact sound.toSwap (sound.callOk call)
  | refetch tries ctx value =>
    simp only [CtxStore.advance, call]
    exact sound.toSwap (sound.callOk call)
  | swap tries ctx value ticket =>
    have callOk := sound.callOk call
    rw [call] at plain
    simp only [CtxStore.advance, call]
    split
    next empty => exact sound.swap call empty (plain empty)
    next =>
      split
      · exact sound.goto_none callOk.1 rfl
      · exact sound.goto_same callOk (congrArg heldTicket call).symm
  | emplace ctx value ticket =>
    simp only [CtxStore.advance, call]
    split
    next => exact sound.goto_none trivial rfl
    next empty => exact sound.emplace call empty
  | remove asked value seen =>
    by_cases same : store.flat asked.realSeq = pack versionBit asked.version value
    · exact sound.remove call same
    · simp only [CtxStore.advance, call, if_neg same]
      exact sound.goto_none trivial rfl

theorem Sound.step (action : StoreAction) (steady : store.Steady action) : (store.step action).Sound := by
  cases action with
  | put thread ctx =>
    rw [CtxStore.step]
    split
    next starts => exact sound.goto_none ⟨starts.2, 0, pack_zero.symm⟩ rfl
    next => exact sound
  | get seqNo => exact sound.getBySeqNo steady
  | remove thread seqNo =>
    exact guarded sound fun _ => sound.getSeqNoAndRemove
  | advance thread => exact sound.advance steady

end

theorem sound_initial {flatCapacity : Nat} : (initial flatCapacity).Sound where
  shift := versionShift_le
  calls _ := trivial
  held := nofun
  puts := nofun
  tickets := nofun
  stored := nofun
  kept := nofun
  words _ := rfl
  entries _ := rfl
  removed := nofun
  once := .nil
  found := nofun

/-! ## What follows -/

theorem Sound.finishes (sound : store.Sound) (call : store.calls thread = .remove asked value (some put))
    (seqNo : asked.request = put.seqNo) (stored : store.stored asked.place = some put) :
    (store.step (.advance thread)).removals = ⟨asked, put.ctx, some put⟩ :: store.removals := by
  obtain ⟨flat, rfl⟩ := sound.callOk call
  have notNull := (sound.puts put (sound.stored _ put stored).1).ctx
  have same : store.flat asked.realSeq = pack versionBit asked.version put.ctx := by
    rw [sound.words, ← place_flat flat, stored, wordOf, ← seqNo]
    rfl
  simp only [CtxStore.step, CtxStore.advance, call, Option.map_some, Option.getD_some, if_pos same,
    if_neg (ctx_val_ne_zero notNull)]
  rw [← stored]
  rfl

theorem Sound.removable (sound : store.Sound) {place : Place} (stored : store.stored place = some put)
    (idle : store.calls thread = .idle) (seqNo : asked.request = put.seqNo) :
    ((store.step (.remove thread asked)).step (.advance thread)).removals =
      ⟨asked, put.ctx, some put⟩ :: store.removals := by
  obtain ⟨mem, isPlace, -⟩ := sound.stored place put stored
  have samePlace : place = asked.place := by rw [isPlace, ← seqNo, place_request]
  rw [samePlace] at stored
  cases flat : asked.fromFlat with
  | true =>
    have inside : ¬ store.capacity ≤ asked.realSeq := by
      have realSeq : asked.request.realSeq = put.seqNo.realSeq := congrArg SeqNo.realSeq seqNo
      rw [show asked.realSeq = put.seqNo.realSeq from realSeq, (sound.puts put mem).seqNo, realSeq_numberOf sound.shift,
        bucketOf_eq sound.shift]
      exact Nat.not_le.mpr (Nat.mod_lt _ (Nat.two_pow_pos _))
    have started : store.step (.remove thread asked) =
        store.goto thread (.remove asked (store.flat asked.realSeq &&& ptrMask) (some put)) := by
      simp only [CtxStore.step, if_pos idle, CtxStore.getSeqNoAndRemove, if_pos flat, if_neg inside, stored]
    have startedSound := sound.step (.remove thread asked) trivial
    rw [started] at startedSound ⊢
    exact startedSound.finishes (update_self ..) seqNo stored
  | false =>
    have entry := sound.entries asked.request
    rw [← place_hash flat, stored] at entry
    obtain ⟨tag, found⟩ := entry
    simp only [CtxStore.step, idle, if_true, CtxStore.getSeqNoAndRemove, flat, Bool.false_eq_true, if_false, found,
      pack_and_ptrMask, CtxStore.takeOut, CtxStore.advance, stored]

theorem Sound.right (sound : store.Sound) : store.Right where
  distinct := by
    intro place other put another stored storedOther same
    rw [(sound.stored place put stored).2.1, (sound.stored other another storedOther).2.1, same]
  apart := by
    intro put mem other otherListed same before
    have ok := (sound.puts put mem).seqNo
    have okOther := (sound.puts other otherListed).seqNo
    rw [← same] at okOther
    exact numberOf_apart sound.shift (ok.symm.trans okOther) before
  kept := by
    intro put mem
    constructor
    · rintro ⟨place, stored⟩
      exact (sound.stored place put stored).2.2
    · intro stays
      rcases sound.kept put mem with stored | ⟨take, removed, isPut⟩
      · exact ⟨_, stored⟩
      · exact absurd isPut (stays take removed)
  once := sound.once
  removed take removed := (sound.removed take removed).1
  found := sound.found
  finishes _ _ _ _ := sound.finishes
  removable _ _ stored _ idle _ := sound.removable stored idle

def firstNumber : SeqNo := ⟨1, 0, true, false⟩

/-- A call of `PutAndGetSeqNo` with this many accesses. -/
def putAlone (thread : Nat) (ctx : Pointer) (accesses : Nat) : List StoreAction :=
  .put thread ctx :: replicate accesses (.advance thread)

/-- Other threads fetch this many numbers and stop there. -/
def drawn (first count : Nat) : List StoreAction :=
  (range' first count).flatMap fun thread => [.put thread 1, .advance thread]

/-- A context comes and goes, and after a turn of the numbers the next one comes to its bucket. -/
def reuse : List StoreAction :=
  putAlone 0 5 2 ++ [.remove 0 firstNumber, .advance 0] ++ drawn 1 126 ++ putAlone 0 7 3 ++ [.get firstNumber]

end UbsComm.Service.CtxStore
