import TradeLayer.MemoryFiles

namespace TradeLayer
open Library

structure BlockIndex where
  hash : Nat
  nHeight : Int
  deriving DecidableEq, Repr

structure Storage where
  /-- A block of the index with the blocks before it, the closest one first. -/
  blockIndex : Nat → List BlockIndex
  /-- The blocks of the active chain. -/
  chainActive : Nat → Bool
  genesisBlock : Int
  hash : List Char → List Char
  /-- What becomes of a file name whose prefix is null. -/
  formatNull : Nat → Except RestoreError (List Char)

abbrev Directory := OrderedMap (List Char) (List (List Char))

def storeEveryNBlock : Int := 10000

namespace Storage

variable (v : Storage) (topIndex : BlockIndex) (dir : Directory) (blockHash : Nat) (s : MemoryState)

def fileName (what : FileType) (blockHash : Nat) : Except RestoreError (List Char) :=
  match statePrefix what with
  | some text => .ok (text ++ '-' :: (hexText blockHash ++ ".dat".toList))
  | none => v.formatNull blockHash

def writeStateFile (block : BlockIndex) (s : MemoryState) (dir : Directory) (what : FileType) :
    Except RestoreError Directory := do
  let name ← v.fileName what block.hash
  let contents ← s.fileContents v.hash what
  return dir.set name contents

/-- The comparison of a text with the prefixes, the null ones last. -/
def isStatePrefix (text : List Char) : Except RestoreError Bool :=
  if text ∈ statePrefixes then .ok true else .error (.abort .undefined)

def nameParts (fName : List Char) : List (List Char) :=
  splitAny (fun c => c = '-' || c = '.') fName

def statefulBlockHashes : List (List Char × List (List Char)) → Except RestoreError (List Nat)
  | [] => .ok []
  | (fName, _) :: rest => do
    match nameParts fName with
    | [text, blockHash, extension] =>
      if (← isStatePrefix text) ∧ extension = "dat".toList then
        return (← statefulBlockHashes rest).insert (uint256S blockHash)
      else statefulBlockHashes rest
    | _ => statefulBlockHashes rest

def isOutdated : Bool :=
  match (v.blockIndex blockHash).head? with
  | none => true
  | some curIndex => maxStateHistory < topIndex.nHeight - curIndex.nHeight &&
      curIndex.nHeight.tmod storeEveryNBlock ≠ 0

def removeFiles : Except RestoreError Directory :=
  FileType.all.foldlM (fun dir what => do
    let name ← v.fileName what blockHash
    return dir.erase name) dir

def pruneStateFiles : Except RestoreError Directory := do
  let hashes ← statefulBlockHashes dir.toList
  (hashes.filter (v.isOutdated topIndex)).foldlM v.removeFiles dir

def writtenTypes : List FileType :=
  [.balances, .offers, .accepts, .globals, .mdexorders, .cdexorders, .cachefees, .withdrawals,
    .activeChannels]

def persistInMemoryState (block : BlockIndex) (s : MemoryState) (dir : Directory) : Except
    RestoreError (MemoryState × Directory) := do
  let dir ← writtenTypes.foldlM (v.writeStateFile block s) dir
  let dir ← v.pruneStateFiles block dir
  return ({ s with watermark := some block.hash }, dir)

/-- Loads one file. What it is loaded into is cleared before the file is looked for. -/
def restoreInMemoryState (fileName : List Char) (what : FileType) (verifyHash : Bool)
    (s : MemoryState) : Except RestoreError (Int × MemoryState) :=
  match dir.get? fileName with
  | none => .ok (-1, s.clear what)
  | some file => loadFile (MemoryState.inputLineFunc what) v.hash verifyHash file (s.clear what)

abbrev Opened := List (FileType × List Char)

/-- The loop over the kinds of files of a block, up to the first one that does not load. -/
def restoreFiles (v : Storage) (dir : Directory) (blockHash : Nat) :
    List FileType → Int → MemoryState → Opened → Except RestoreError (Int × MemoryState × Opened)
  | [], success, s, opened => .ok (success, s, opened)
  | what :: rest, _, s, opened => do
    let name ← v.fileName what blockHash
    let (success, s) ← v.restoreInMemoryState dir name what true s
    if success < 0 then return (success, s, opened ++ [(what, name)])
    else v.restoreFiles dir blockHash rest success s (opened ++ [(what, name)])

def popBlock (s : MemoryState) (blockHash : Nat) : Int × MemoryState :=
  let (remainingSPs, spInfo) := s.node.spInfo.popBlock blockHash
  (remainingSPs, { s with node := { s.node with spInfo } })

def setWatermark (pprev : Option BlockIndex) : MemoryState :=
  match pprev with
  | some block => { s with watermark := some block.hash }
  | none => s

def rollBackToChain (v : Storage) :
    List BlockIndex → MemoryState → Bool × List BlockIndex × MemoryState
  | [], s => (true, [], s)
  | block :: rest, s =>
    if v.chainActive block.hash then (true, block :: rest, s)
    else
      let (remainingSPs, s) := popBlock s block.hash
      if remainingSPs < 0 then (false, [], s)
      else v.rollBackToChain rest (setWatermark s rest.head?)

def persistedBlocks : List Nat :=
  dir.toList.foldl (fun hashes e =>
    match nameParts e.1 with
    | [_, blockHash, extension] =>
      if extension = "dat".toList ∧ v.blockIndex (uint256S blockHash) ≠ [] ∧
          v.chainActive (uint256S blockHash) then
        hashes.insert (uint256S blockHash)
      else hashes
    | _ => hashes) []

def restoreBlock (curTip : BlockIndex) (persisted : List Nat) (s : MemoryState) (opened : Opened) :
    Except RestoreError (Int × MemoryState × Opened) :=
  if curTip.hash ∈ persisted then v.restoreFiles dir curTip.hash FileType.all (-1) s opened
  else .ok (-1, s, opened)

def walkBack (v : Storage) (dir : Directory) (abortRollBackBlock : Int) :
    List BlockIndex → List Nat → MemoryState → Opened →
      Except RestoreError (Int × MemoryState × Opened)
  | [], _, s, opened => .ok (-1, s, opened)
  | curTip :: rest, persisted, s, opened =>
    if persisted ≠ [] ∧ abortRollBackBlock < curTip.nHeight then do
      let (success, s, opened) ← v.restoreBlock dir curTip persisted s opened
      if 0 ≤ success then return (curTip.nHeight, s, opened)
      else
        let (remainingSPs, s) := popBlock s curTip.hash
        let persisted := persisted.erase curTip.hash
        if remainingSPs ≤ 0 then return (-1, s, opened)
        else v.walkBack dir abortRollBackBlock rest persisted (setWatermark s rest.head?) opened
    else .ok (-1, s, opened)

def loadMostRelevantInMemoryState : Except RestoreError (Int × MemoryState × Opened) :=
  match s.watermark with
  | none => .ok (-1, s, [])
  | some spWatermark =>
    if v.blockIndex spWatermark = [] then .ok (-1, s, [])
    else
      match v.rollBackToChain (v.blockIndex spWatermark) s with
      | (false, _, s) => .ok (-1, s, [])
      | (true, blocks, s) =>
        v.walkBack dir (v.genesisBlock - 1) blocks (v.persistedBlocks dir) s []

end Storage

namespace Storage

variable {v : Storage} {dir : Directory} {s : MemoryState} {block : BlockIndex}

def written (v : Storage) (block : BlockIndex) : Opened :=
  writtenTypes.filterMap fun what =>
    match v.fileName what block.hash with
    | .ok name => some (what, name)
    | .error _ => none

/-- The state that is written for a block is loaded for it again and the database of properties is
not rolled back, all from files that were written for the block, under names that have a prefix. -/
def Loads (v : Storage) (block : BlockIndex) (s : MemoryState) (dir : Directory) : Prop :=
  ∃ s₁ dir' s₂ opened, v.persistInMemoryState block s dir = .ok (s₁, dir') ∧
    v.loadMostRelevantInMemoryState dir' s₁ = .ok (block.nHeight, s₂, opened) ∧
    s₂.node.spInfo = s₁.node.spInfo ∧ ∀ file ∈ opened, file ∈ v.written block ∧
      statePrefix file.1 ≠ none

section Opened

variable {s' : MemoryState} {opened opened' : Opened} {rc success : Int} {blockHash : Nat}
variable {what : FileType} {types : List FileType} {blocks : List BlockIndex}
variable {persisted : List Nat} {abortRollBackBlock : Int}

theorem opened_of_restoreFiles
    (h : v.restoreFiles dir blockHash types success s opened = .ok (rc, s', opened'))
    (hrc : 0 ≤ rc) : opened ⊆ opened' ∧ ∀ what ∈ types, ∃ name, (what, name) ∈ opened' := by
  induction types generalizing success s opened with
  | nil =>
    cases h
    exact ⟨List.Subset.refl _, List.forall_mem_nil _⟩
  | cons what types ih =>
    rw [restoreFiles] at h
    obtain ⟨name, -, h⟩ := bind_eq_ok.mp h
    obtain ⟨⟨success', m⟩, -, h⟩ := bind_eq_ok.mp h
    dsimp only at h
    split_ifs at h with hfailed
    · cases h
      exact absurd hrc hfailed.not_ge
    · obtain ⟨hsubset, hopened⟩ := ih h
      refine ⟨List.Subset.trans (List.subset_append_left _ _) hsubset,
        List.forall_mem_cons.mpr ⟨?_, hopened⟩⟩
      exact ⟨name, hsubset (List.mem_append_right _ List.mem_cons_self)⟩

/-- A walk back over the blocks that finds a state has opened a file of every kind. -/
theorem opened_of_walkBack
    (h : v.walkBack dir abortRollBackBlock blocks persisted s opened = .ok (rc, s', opened'))
    (hrc : 0 ≤ rc) : ∀ what ∈ FileType.all, ∃ name, (what, name) ∈ opened' := by
  induction blocks generalizing persisted s opened with
  | nil =>
    cases h
    exact absurd hrc (by decide)
  | cons curTip blocks ih =>
    rw [walkBack] at h
    split_ifs at h with hgoes
    · obtain ⟨⟨success, m, opened₁⟩, hm, h⟩ := bind_eq_ok.mp h
      dsimp only at h
      split_ifs at h with hloaded hremaining
      · cases h
        rw [restoreBlock] at hm
        split_ifs at hm
        · exact (opened_of_restoreFiles hm hloaded).2
        · cases hm
          exact absurd hloaded (by decide)
      · cases h
        exact absurd hrc (by decide)
      · exact ih h
    · cases h
      exact absurd hrc (by decide)

theorem opened_of_load (h : v.loadMostRelevantInMemoryState dir s = .ok (rc, s', opened'))
    (hrc : 0 ≤ rc) : ∀ what ∈ FileType.all, ∃ name, (what, name) ∈ opened' := by
  rw [loadMostRelevantInMemoryState] at h
  split at h
  case h_1 =>
    cases h
    exact absurd hrc (by decide)
  case h_2 =>
    split_ifs at h
    · cases h
      exact absurd hrc (by decide)
    · split at h
      case h_1 =>
        cases h
        exact absurd hrc (by decide)
      case h_2 => exact opened_of_walkBack h hrc

end Opened

theorem mem_writtenTypes {file : FileType × List Char} (h : file ∈ v.written block) :
    file.1 ∈ writtenTypes := by
  obtain ⟨what, hwhat, heq⟩ := List.mem_filterMap.mp h
  cases hname : v.fileName what block.hash with
  | error e =>
    rw [hname] at heq
    cases heq
  | ok name =>
    rw [hname] at heq
    cases heq
    exact hwhat

/-- No state is loaded for the block that it was written for: that takes a file of market prices,
and none is written. -/
theorem not_loads (hheight : 0 ≤ block.nHeight) : ¬ v.Loads block s dir := by
  rintro ⟨s₁, dir', s₂, opened, -, hload, -, hwritten⟩
  obtain ⟨name, hname⟩ := opened_of_load hload hheight .marketprices (by decide)
  have hkind : FileType.marketprices ∈ writtenTypes := mem_writtenTypes (hwritten _ hname).1
  exact absurd hkind (by decide)

def sampleStorage : Storage where
  blockIndex := fun h => if h = 7 then [⟨7, 300⟩, ⟨6, 299⟩] else if h = 6 then [⟨6, 299⟩] else []
  chainActive := fun h => h = 7 || h = 6
  genesisBlock := 101
  hash := lengthHash
  formatNull := fun _ => .ok []

def sampleMemory : MemoryState where
  node := { NodeState.oneManaged .regtest ['i'] with
    ledger := .ofPostings [⟨⟨['a'], 3, .balance⟩, 5⟩, ⟨⟨['a'], 3, .metadexReserve⟩, 2⟩]
    metadex := Book.file ∅ 3 1 ⟨['a'], 299, 9, 1, 3, 2, 1, 2, 2⟩ }
  channelsMap := ∅
  withdrawalMap := ∅
  contractRemaining := fun _ => 0
  watermark := none

theorem not_loads_sampleMemory : ¬ sampleStorage.Loads ⟨7, 300⟩ sampleMemory ∅ :=
  not_loads (by decide)

/-- Nothing of what is written for the block is kept: five files load, the file of prices is
missing, and the database of properties is rolled back past the block. -/
theorem load_of_sampleMemory :
    (do
      let (s, dir) ← sampleStorage.persistInMemoryState ⟨7, 300⟩ sampleMemory ∅
      let (rc, s, opened) ← sampleStorage.loadMostRelevantInMemoryState dir s
      return (rc, s.watermark, opened.map Prod.fst) :
        Except RestoreError (Int × Option Nat × List FileType)) =
      .ok (-1, some 6, [.balances, .offers, .accepts, .globals, .mdexorders, .marketprices]) ∧
    ¬ sampleStorage.Loads ⟨7, 300⟩ sampleMemory ∅ := by
  refine and_iff_left_of_imp (fun hrun => ?_) |>.mpr (by decide +kernel)
  rintro ⟨s₁, dir', s₂, opened, hpersist, hload, -⟩
  rw [hpersist, ok_bind] at hrun
  dsimp only at hrun
  rw [hload, ok_bind] at hrun
  simp at hrun

end Storage

end TradeLayer
