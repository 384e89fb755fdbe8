import UbsComm.Library.Radix

/-! # The page table of registered regions

A radix tree over 64-bit addresses whose root stands for the block of addresses that agree with
`virBaseAddr` under `spaceMask`.  A region is cut into aligned pages, each of which is one entry; the
tree grows at the root when a page lies outside its block and loses its root again while that has one
entry only.  The allocation of directories succeeds, as does every allocation below. -/

namespace UbsComm.Memory

open Library Function

abbrev pageShiftMin : Nat := 4
abbrev pteShiftPerDir : Nat := 4
abbrev pteIndexMask : Nat := 15
abbrev pgtAddrOrderMax : Nat := 64

/-- A region with aligned bounds; `object` is where it lies, which tells it from another with the same bounds. -/
structure PgtRegion where
  start : Nat
  stop : Nat
  object : Nat
  startAligned : 16 ∣ start := by decide
  stopAligned : 16 ∣ stop := by decide
  startSmall : start < 2 ^ 64 := by decide
  stopSmall : stop < 2 ^ 64 := by decide
deriving DecidableEq

/-- The entry of a directory: absent, a region, or a directory with its count. -/
abbrev PgtEntry := Radix pteShiftPerDir PgtRegion

structure PgTable where
  regionCount : Nat
  rootEntry : PgtEntry
  virBaseAddr : Nat
  spaceMask : Nat
  indexShift : Nat

def pageTableMask : Nat := (2 ^ 64 - 1) <<< pageShiftMin % 2 ^ 64

def PgTable.new : PgTable := ⟨0, .empty, 0, pageTableMask, pageShiftMin⟩

def pteIndex (address shift : Nat) : Fin (2 ^ pteShiftPerDir) :=
  ⟨(address >>> shift) &&& pteIndexMask, Nat.and_lt_two_pow _ (by decide)⟩

namespace PgTable

variable (table : PgTable)

def pgTableReset : PgTable :=
  { table with virBaseAddr := 0, spaceMask := pageTableMask, indexShift := pageShiftMin }

/-- A directory with the entry as its only one. -/
def dirOf (index : Fin (2 ^ pteShiftPerDir)) (entry : PgtEntry) : PgtEntry :=
  .node 1 (update (fun _ => .empty) index entry)

/-- The table with one more level, none when it has all of them. -/
def pgtExpand : Option PgTable :=
  if table.indexShift > pgtAddrOrderMax - pteShiftPerDir then none
  else
    let spaceMask := table.spaceMask <<< pteShiftPerDir % 2 ^ 64
    some { table with
      rootEntry :=
        if table.rootEntry.isPresent then dirOf (pteIndex table.virBaseAddr table.indexShift) table.rootEntry
        else table.rootEntry
      indexShift := table.indexShift + pteShiftPerDir
      spaceMask
      virBaseAddr := table.virBaseAddr &&& spaceMask }

/-- Expands while the condition holds; the flag tells that no expansion was refused.  There are at most
    sixteen levels, hence the fuel. -/
def expandWhile (condition : PgTable → Bool) : Nat → PgTable → PgTable × Bool
  | 0, table => (table, false)
  | fuel + 1, table =>
    if condition table then
      match table.pgtExpand with
      | none => (table, false)
      | some expanded => expandWhile condition fuel expanded
    else (table, true)

def pgtEnsureCapacity (order address : Nat) (table : PgTable) : PgTable :=
  match table.expandWhile (fun table => decide (table.indexShift < order)) 17 with
  | (deep, false) => deep
  | (deep, true) =>
    if !deep.rootEntry.isPresent then { deep with virBaseAddr := address &&& deep.spaceMask }
    else (deep.expandWhile (fun table => address &&& table.spaceMask != table.virBaseAddr) 17).1

/-- Takes the root away when it is a directory with a single entry; the flag tells that it was. -/
def pgtShrink : PgTable × Bool :=
  match table.rootEntry with
  | .empty => (table.pgTableReset, false)
  | .leaf _ => (table, false)
  | .node count entries =>
    if count ≠ 1 then (table, false)
    else
      match (List.finRange (2 ^ pteShiftPerDir)).find? fun i => (entries i).isPresent with
      | none => (table, false)
      | some idx =>
        if table.indexShift < pteShiftPerDir then (table, false)
        else
          let indexShift := table.indexShift - pteShiftPerDir
          ({ table with
              indexShift
              virBaseAddr := table.virBaseAddr ||| (idx : Nat) <<< indexShift
              spaceMask := table.spaceMask ||| pteIndexMask <<< indexShift
              rootEntry := entries idx }, true)

/-- Shrinks until that fails; a level goes in each round. -/
def shrinkLoop : Nat → PgTable → PgTable
  | 0, table => table
  | fuel + 1, table =>
    match table.pgtShrink with
    | (shrunk, false) => shrunk
    | (shrunk, true) => shrinkLoop fuel shrunk

def shrinkAll : PgTable := table.shrinkLoop 17

end PgTable

/-! ## Pages -/

inductive NResult where
  | nnOk
  | nnError
  | nnInvalidParam

def isAddrAligned (address : Nat) : Bool := address &&& (1 <<< pageShiftMin - 1) == 0

def validatePage (address order : Nat) : Bool :=
  address &&& (1 <<< order - 1) == 0 && (order - pageShiftMin) % pteShiftPerDir == 0

def highestBitPosition (n : Nat) : Nat := n.log2

/-- The number of zero bits below the first set one, of the 64 bits of a word. -/
def lowestBitPosition (n : Nat) : Nat := ((List.range 64).find? fun i => n.testBit i).getD 64

/-- The order of the first page of `[start, stop)`; none is the source's `-1`. -/
def getNextPageOrder (start stop : Nat) : Option Nat :=
  if !isAddrAligned start || !isAddrAligned stop then none
  else
    let maxOrder :=
      if stop = 0 ∧ start = 0 then pgtAddrOrderMax
      else if stop = start then pageShiftMin
      else if start ≠ 0 then min (lowestBitPosition start) (highestBitPosition (stop - start))
      else highestBitPosition (stop - start)
    if maxOrder < pageShiftMin ∨ maxOrder > pgtAddrOrderMax then none
    else some ((maxOrder - pageShiftMin) / pteShiftPerDir * pteShiftPerDir + pageShiftMin)

def advanceAddrByOrder (address order : Nat) : Nat :=
  if order ≥ 64 then address else (address + 1 <<< order) % 2 ^ 64

/-- The descent of `InsertPage`, none for its rollback.  A directory is made for an absent entry, and
    nothing is in the way below one that was made, so that a descent that fails has made none. -/
def insertEntry (address order : Nat) (region : PgtRegion) : Nat → Nat → PgtEntry → Option PgtEntry
  | 0, _, _ => none
  | fuel + 1, currentShift, entry =>
    if order = currentShift then
      if entry.isPresent then none else some (.leaf region)
    else
      match entry with
      | .leaf _ => none
      | .empty =>
        if currentShift < pteShiftPerDir + order then none
        else
          let nextShift := currentShift - pteShiftPerDir
          (insertEntry address order region fuel nextShift .empty).map (PgTable.dirOf (pteIndex address nextShift))
      | .node count entries =>
        if currentShift < pteShiftPerDir + order then none
        else
          let nextShift := currentShift - pteShiftPerDir
          let index := pteIndex address nextShift
          (insertEntry address order region fuel nextShift (entries index)).map fun entry =>
            .node (if (entries index).isPresent then count else count + 1) (update entries index entry)

/-- None for an error. -/
def unlinkRegion (address order : Nat) (region : PgtRegion) : PgtEntry → Nat → Option PgtEntry
  | .empty, _ => none
  | .leaf held, shift => if shift ≠ order then none else if held ≠ region then none else some .empty
  | .node count entries, shift =>
    let nextShift := shift - pteShiftPerDir
    let index := pteIndex address nextShift
    (unlinkRegion address order region (entries index) nextShift).map fun entry =>
      let count := if entry.isPresent then count else count - 1
      if count = 0 then .empty else .node count (update entries index entry)

namespace PgTable

def insertPage (address order : Nat) (region : PgtRegion) (table : PgTable) : PgTable × NResult :=
  if !validatePage address order then (table, .nnInvalidParam)
  else
    let table := table.pgtEnsureCapacity order address
    match insertEntry address order region (table.indexShift + 1) table.indexShift table.rootEntry with
    | none => (table.shrinkAll, .nnError)
    | some rootEntry => ({ table with rootEntry }, .nnOk)

def removePage (address order : Nat) (region : PgtRegion) (table : PgTable) : PgTable × NResult :=
  if !validatePage address order then (table, .nnInvalidParam)
  else if address &&& table.spaceMask ≠ table.virBaseAddr then (table, .nnError)
  else
    match unlinkRegion address order region table.rootEntry table.indexShift with
    | none => (table, .nnError)
    | some rootEntry => (({ table with rootEntry } : PgTable).shrinkAll, .nnOk)

/-! ## The calls -/

/-- Inserts the pages from `address` on; the address that failed, if one did.  A page has sixteen bytes
    at least, hence the fuel of the callers. -/
def insertPages (region : PgtRegion) : Nat → Nat → PgTable → PgTable × Option Nat
  | 0, address, table => (table, some address)
  | fuel + 1, address, table =>
    if address < region.stop then
      match getNextPageOrder address region.stop with
      | none => (table, some address)
      | some order =>
        if order ≥ 64 then (table, some address)
        else
          match table.insertPage address order region with
          | (table, .nnOk) => insertPages region fuel (advanceAddrByOrder address order) table
          | (table, _) => (table, some address)
    else (table, none)

def rollbackPages (region : PgtRegion) (stop : Nat) : Nat → Nat → PgTable → PgTable
  | 0, _, table => table
  | fuel + 1, address, table =>
    if address < stop then
      match getNextPageOrder address stop with
      | none => table
      | some order =>
        rollbackPages region stop fuel (advanceAddrByOrder address order) (table.removePage address order region).1
    else table

variable (region : PgtRegion)

def pagesFuel : Nat := region.stop - region.start + 1

def wrongRegion : Bool :=
  decide (region.start ≥ region.stop) || !isAddrAligned region.start || !isAddrAligned region.stop

def insert (table : PgTable) : PgTable × NResult :=
  if wrongRegion region then (table, .nnInvalidParam)
  else
    match table.insertPages region (pagesFuel region) region.start with
    | (table, none) => ({ table with regionCount := table.regionCount + 1 }, .nnOk)
    | (table, some failed) => (table.rollbackPages region failed (pagesFuel region) region.start, .nnError)

/-- The result of the page that could not be removed, if there is one. -/
def removePages (region : PgtRegion) : Nat → Nat → PgTable → PgTable × NResult
  | 0, _, table => (table, .nnError)
  | fuel + 1, address, table =>
    if address < region.stop then
      match getNextPageOrder address region.stop with
      | none => (table, .nnError)
      | some order =>
        if order ≥ 64 then (table, .nnError)
        else
          match table.removePage address order region with
          | (table, .nnOk) => removePages region fuel (advanceAddrByOrder address order) table
          | (table, result) => (table, if address ≠ region.start then .nnError else result)
    else (table, .nnOk)

def remove (table : PgTable) : PgTable × NResult :=
  if wrongRegion region then (table, .nnError)
  else
    match table.removePages region (pagesFuel region) region.start with
    | (table, .nnOk) => ({ table with regionCount := table.regionCount - 1 }, .nnOk)
    | (table, result) => (table, result)

end PgTable

def lookupEntry (address : Nat) : PgtEntry → Nat → Option PgtRegion
  | .empty, _ => none
  | .leaf region, _ => if address < region.start ∨ address ≥ region.stop then none else some region
  | .node _ entries, currentShift =>
    let nextShift := currentShift - pteShiftPerDir
    lookupEntry address (entries (pteIndex address nextShift)) nextShift

def PgTable.lookup (address : Nat) (table : PgTable) : Option PgtRegion :=
  if address &&& table.spaceMask ≠ table.virBaseAddr then none
  else if !table.rootEntry.isPresent then none
  else lookupEntry address table.rootEntry table.indexShift

end UbsComm.Memory
