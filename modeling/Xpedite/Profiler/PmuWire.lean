import Xpedite.Framework.ParserCore
import Xpedite.Lib.Blocks
import Xpedite.Profiler.PmuRequestCore

/-!
A request to program the counters on its way: packed and written as hexadecimal text by the
profiler, read back by `parsePmuRequest` of the target.
-/

namespace Xpedite.Profiler

open Lib Framework

structure Fits (cpu : Nat) (eventSet : EventSet) : Prop where
  cpu : cpu < 2 ^ 8
  fixedFew : eventSet.fixedRequests.length ≤ 3
  genericFew : eventSet.genericRequests.length ≤ 8
  offcoreFew : eventSet.offcoreRequests.length ≤ 2
  fixed : ∀ request ∈ eventSet.fixedRequests, request.ctrIndex < 2 ^ 8
  generic : ∀ request ∈ eventSet.genericRequests,
    request.event.eventSelect < 2 ^ 8 ∧ request.event.unitMask < 2 ^ 8 ∧
      request.event.counterMask < 2 ^ 8 ∧ request.event.anyThread < 2 ^ 8
  offcore : ∀ request ∈ eventSet.offcoreRequests, request.event.msrValue < 2 ^ 64

def FixedEntry (request : Option FixedPmuRequest) (entry : PMUFixedEvent) : Prop :=
  match request with
  | none => entry.ctrIndex = 0 ∧ entry.user = 0 ∧ entry.kernel = 0
  | some request =>
      entry.ctrIndex.toNat = request.ctrIndex ∧ entry.user.toNat = request.user.toNat ∧
        entry.kernel.toNat = request.kernel.toNat

def GenericEntry (request : Option GenericPmuRequest) (entry : PMUGpEvent) : Prop :=
  match request with
  | none => entry = ⟨0, 0, 0, 0, 0, 0, 0, 0⟩
  | some request =>
      entry.eventSelect.toNat = request.event.eventSelect ∧
        entry.unitMask.toNat = request.event.unitMask ∧
        entry.user.toNat = request.user.toNat ∧ entry.kernel.toNat = request.kernel.toNat ∧
        entry.invertCMask.toNat = request.event.invert.toNat ∧
        entry.counterMask.toNat = request.event.counterMask ∧
        entry.edgeDetect.toNat = request.event.edgeDetect.toNat ∧
        entry.anyThread.toNat = request.event.anyThread

def OffcoreEntry (request : Option OffcorePmuRequest) (entry : UInt64) : Prop :=
  match request with
  | none => entry = 0
  | some request => entry.toNat = request.event.msrValue

/-- What the target understands is what the profiler has asked for, entry by entry. -/
structure Understood (cpu : Nat) (eventSet : EventSet) (request : PMUCtlRequest) : Prop where
  cpu : request.cpu.toNat = cpu
  fixedEvtCount : request.fixedEvtCount.toNat = eventSet.fixedRequests.length
  gpEvtCount : request.gpEvtCount.toNat = eventSet.genericRequests.length
  offcoreEvtCount : request.offcoreEvtCount.toNat = eventSet.offcoreRequests.length
  fixedEvents : ∀ index : Fin 3,
    FixedEntry eventSet.fixedRequests[index.val]? (request.fixedEvents index)
  gpEvents : ∀ index : Fin 8,
    GenericEntry eventSet.genericRequests[index.val]? (request.gpEvents index)
  offcoreEvents : ∀ index : Fin 2,
    OffcoreEntry eventSet.offcoreRequests[index.val]? (request.offcoreEvents index)

section Digits

open RequestParser

def IsHexDigit (char : Char) : Prop :=
  '0' ≤ char ∧ char ≤ '9' ∨ 'A' ≤ char ∧ char ≤ 'F' ∨ 'a' ≤ char ∧ char ≤ 'f'

theorem atoiTable_hexDigit : ∀ value : Fin 16,
    atoiTable (PMUCtrl.hexDigit value.val) = UInt8.ofNat value.val := by
  decide

theorem nibbles_eq : ∀ high low : Fin 16,
    (UInt8.ofNat high.val <<< 4) + UInt8.ofNat low.val = UInt8.ofNat (16 * high.val + low.val) := by
  decide

theorem not_above_nibble : ∀ value : Fin 16, ¬0x0F < UInt8.ofNat value.val := by
  decide

theorem atoiHex_hexByte (byte : UInt8) :
    atoiHex (PMUCtrl.hexDigit (byte.toNat / 16)) (PMUCtrl.hexDigit (byte.toNat % 16)) =
      some byte := by
  have bound := byte.toNat_lt
  let high : Fin 16 := ⟨byte.toNat / 16, by omega⟩
  let low : Fin 16 := ⟨byte.toNat % 16, by omega⟩
  have small : ¬(0x0F < UInt8.ofNat high.val ∨ 0x0F < UInt8.ofNat low.val) :=
    not_or.mpr ⟨not_above_nibble high, not_above_nibble low⟩
  have whole : 16 * high.val + low.val = byte.toNat := Nat.div_add_mod byte.toNat 16
  rw [atoiHex, atoiTable_hexDigit high, atoiTable_hexDigit low, if_neg small, nibbles_eq high low, whole, UInt8.ofNat_toNat]

theorem parseBytes_pduOf (offset : Nat) (bytes : List UInt8) :
    parseBytes offset (PMUCtrl.pduOf bytes) = .ok bytes := by
  induction bytes generalizing offset with
  | nil => rfl
  | cons byte rest ih =>
      cases rest with
      | nil =>
          simp only [PMUCtrl.pduOf, PMUCtrl.hexByte, parseBytes, atoiHex_hexByte]
      | cons next rest =>
          simp only [PMUCtrl.pduOf, PMUCtrl.hexByte, List.cons_append, List.nil_append, parseBytes,
            atoiHex_hexByte]
          rw [ih]
          rfl

theorem length_pduOf (bytes : List UInt8) : (PMUCtrl.pduOf bytes).length = 3 * bytes.length - 1 := by
  induction bytes with
  | nil => rfl
  | cons byte rest ih =>
      cases rest with
      | nil => rfl
      | cons next rest =>
          simp only [PMUCtrl.pduOf, PMUCtrl.hexByte, List.length_append, List.length_cons, ih,
            List.length_nil]
          omega

theorem atoiTable_of_not_hexDigit {char : Char} (other : ¬IsHexDigit char) :
    atoiTable char = 16 := by
  rw [IsHexDigit, not_or, not_or] at other
  rw [atoiTable, if_neg other.1, if_neg other.2.1, if_neg other.2.2]

theorem isHexDigit_of_atoiHex {msb lsb : Char} {byte : UInt8} (read : atoiHex msb lsb = some byte) :
    IsHexDigit msb ∧ IsHexDigit lsb := by
  constructor
  · by_contra other
    rw [atoiHex, atoiTable_of_not_hexDigit other, if_pos (.inl (by decide))] at read
    cases read
  · by_contra other
    rw [atoiHex, atoiTable_of_not_hexDigit other, if_pos (.inr (by decide))] at read
    cases read

def ByteAt (text : List Char) (index : Nat) : Prop :=
  ∃ msb lsb, text[3 * index]? = some msb ∧ text[3 * index + 1]? = some lsb ∧
    IsHexDigit msb ∧ IsHexDigit lsb

theorem ByteAt.cons {text : List Char} {index : Nat} (first second third : Char)
    (read : ByteAt text index) : ByteAt (first :: second :: third :: text) (index + 1) := by
  obtain ⟨msb, lsb, high, low, digits⟩ := read
  have shift : 3 * (index + 1) = 3 * index + 3 := by omega
  refine ⟨msb, lsb, ?_, ?_, digits⟩
  · rw [shift]
    exact high
  · rw [shift]
    exact low

theorem byteAt_of_parseBytes {offset : Nat} {text : List Char} {bytes : List UInt8}
    (parsed : parseBytes offset text = .ok bytes) {index : Nat}
    (room : 3 * index + 1 < text.length) : ByteAt text index := by
  fun_induction parseBytes offset text generalizing bytes index with
  | case1 => cases parsed
  | case2 offset msb lsb byte read =>
      obtain rfl : index = 0 := by
        simp only [List.length_cons, List.length_nil] at room
        omega
      exact ⟨msb, lsb, rfl, rfl, isHexDigit_of_atoiHex read⟩
  | case3 offset msb lsb byte read separator rest ih =>
      cases index with
      | zero => exact ⟨msb, lsb, rfl, rfl, isHexDigit_of_atoiHex read⟩
      | succ index =>
          cases continued : parseBytes (offset + 3) rest with
          | error errors =>
              rw [continued] at parsed
              cases parsed
          | ok others =>
              refine (ih continued ?_).cons msb lsb separator
              simp only [List.length_cons] at room
              omega
  | case4 text offset short =>
      cases text with
      | nil => cases room
      | cons msb rest =>
          cases rest with
          | nil =>
              simp only [List.length_cons, List.length_nil] at room
              omega
          | cons lsb rest => exact absurd rfl (short msb lsb rest)

theorem parsePmuRequest_error {text : List Char}
    (malformed : text.length ≠ 3 * 93 - 1 ∨ ∃ index < 93, ¬ByteAt text index) :
    ∃ errors, parsePmuRequest text = .error errors := by
  rw [parsePmuRequest]
  by_cases length : text.length = 3 * 93 - 1
  · obtain ⟨index, below, missing⟩ := malformed.resolve_left (not_not.mpr length)
    rw [if_neg (not_not.mpr length)]
    cases parsed : parseBytes 0 text with
    | error errors => exact ⟨errors, rfl⟩
    | ok bytes => exact absurd (byteAt_of_parseBytes parsed (by omega)) missing
  · rw [if_pos length]
    exact ⟨_, rfl⟩

end Digits

section Masks

def FixedPmuRequest.mask (request : FixedPmuRequest) : List UInt8 :=
  [UInt8.ofNat request.ctrIndex, UInt8.ofNat request.user.toNat, UInt8.ofNat request.kernel.toNat]

def GenericPmuRequest.mask (request : GenericPmuRequest) : List UInt8 :=
  [UInt8.ofNat request.event.eventSelect, UInt8.ofNat request.event.unitMask,
    UInt8.ofNat request.user.toNat, UInt8.ofNat request.kernel.toNat,
    UInt8.ofNat request.event.invert.toNat, UInt8.ofNat request.event.counterMask,
    UInt8.ofNat request.event.edgeDetect.toNat, UInt8.ofNat request.event.anyThread]

def OffcorePmuRequest.mask (request : OffcorePmuRequest) : List UInt8 :=
  bytesOf 8 request.event.msrValue

theorem packBytes_eq {values : List Nat} (fit : ∀ value ∈ values, value < 2 ^ 8) :
    packBytes values = some (values.map UInt8.ofNat) :=
  mapM_eq_some_map fun value listed => if_pos (fit value listed)

theorem toNat_lt_of_bool (flag : Bool) : flag.toNat < 256 := by
  have bound := flag.toNat_le
  omega

variable {cpu : Nat} {eventSet : EventSet}

theorem Fits.fixedMasks (fits : Fits cpu eventSet) :
    eventSet.fixedRequests.mapM FixedPmuRequest.buildMask =
      some (eventSet.fixedRequests.map FixedPmuRequest.mask) := by
  apply mapM_eq_some_map
  intro request listed
  have ctrIndex := fits.fixed request listed
  apply packBytes_eq
  simp only [List.forall_mem_cons, List.not_mem_nil, false_imp_iff, implies_true, and_true]
  exact ⟨ctrIndex, toNat_lt_of_bool _, toNat_lt_of_bool _⟩

theorem Fits.genericMasks (fits : Fits cpu eventSet) :
    eventSet.genericRequests.mapM GenericPmuRequest.buildMask =
      some (eventSet.genericRequests.map GenericPmuRequest.mask) := by
  apply mapM_eq_some_map
  intro request listed
  obtain ⟨eventSelect, unitMask, counterMask, anyThread⟩ := fits.generic request listed
  apply packBytes_eq
  simp only [List.forall_mem_cons, List.not_mem_nil, false_imp_iff, implies_true, and_true]
  exact ⟨eventSelect, unitMask, toNat_lt_of_bool _, toNat_lt_of_bool _, toNat_lt_of_bool _,
    counterMask, toNat_lt_of_bool _, anyThread⟩

theorem Fits.offcoreMasks (fits : Fits cpu eventSet) :
    eventSet.offcoreRequests.mapM OffcorePmuRequest.buildMask =
      some (eventSet.offcoreRequests.map OffcorePmuRequest.mask) :=
  mapM_eq_some_map fun request listed => if_pos (fits.offcore request listed)

theorem getElem_padded {α : Type} (requests : List α) (mask : α → List UInt8)
    (defaultMask : List UInt8) {capacity index : Nat} (inside : index < capacity) :
    (PMUCtrl.padded (requests.map mask) capacity defaultMask)[index]? =
      some ((requests[index]?.map mask).getD defaultMask) := by
  rw [PMUCtrl.padded, List.length_map]
  by_cases used : index < requests.length
  · rw [List.getElem?_append_left (by rwa [List.length_map]), List.getElem?_map,
      List.getElem?_eq_getElem used]
    rfl
  · rw [List.getElem?_append_right (by rw [List.length_map]; omega), List.length_map,
      List.getElem?_eq_none (Nat.not_lt.mp used), List.getElem?_replicate, if_pos (by omega)]
    rfl

theorem length_of_mem_padded {α : Type} {requests : List α} {mask : α → List UInt8}
    {defaultMask : List UInt8} {width : Nat} (sized : ∀ request, (mask request).length = width)
    (sizedDefault : defaultMask.length = width) (capacity : Nat) :
    ∀ block ∈ PMUCtrl.padded (requests.map mask) capacity defaultMask, block.length = width := by
  intro block listed
  rcases List.mem_append.mp listed with used | unused
  · obtain ⟨request, -, rfl⟩ := List.mem_map.mp used
    exact sized request
  · rw [List.eq_of_mem_replicate unused, sizedDefault]

theorem length_padded {α : Type} {requests : List α} (mask : α → List UInt8)
    (defaultMask : List UInt8) {capacity : Nat} (few : requests.length ≤ capacity) :
    (PMUCtrl.padded (requests.map mask) capacity defaultMask).length = capacity := by
  rw [PMUCtrl.padded, List.length_append, List.length_map, List.length_replicate]
  omega

end Masks

section Layout

variable {cpu : Nat} {eventSet : EventSet}

def header (cpu : Nat) (eventSet : EventSet) : List UInt8 :=
  [UInt8.ofNat cpu, UInt8.ofNat eventSet.fixedRequests.length,
    UInt8.ofNat eventSet.genericRequests.length, UInt8.ofNat eventSet.offcoreRequests.length]

def fixedBlocks (eventSet : EventSet) : List (List UInt8) :=
  PMUCtrl.padded (eventSet.fixedRequests.map FixedPmuRequest.mask) 3 FixedPmuRequest.defaultMask

def genericBlocks (eventSet : EventSet) : List (List UInt8) :=
  PMUCtrl.padded (eventSet.genericRequests.map GenericPmuRequest.mask) 8
    GenericPmuRequest.defaultMask

def offcoreBlocks (eventSet : EventSet) : List (List UInt8) :=
  PMUCtrl.padded (eventSet.offcoreRequests.map OffcorePmuRequest.mask) 2
    OffcorePmuRequest.defaultMask

def requestBytes (cpu : Nat) (eventSet : EventSet) : List UInt8 :=
  header cpu eventSet ++ ((fixedBlocks eventSet).flatten ++
    ((genericBlocks eventSet).flatten ++ (offcoreBlocks eventSet).flatten))

theorem Fits.buildRequestGroup_eq (fits : Fits cpu eventSet) :
    PMUCtrl.buildRequestGroup cpu eventSet = some (requestBytes cpu eventSet) := by
  have fixedFew := fits.fixedFew
  have genericFew := fits.genericFew
  have offcoreFew := fits.offcoreFew
  have counts : packBytes [cpu, eventSet.fixedRequests.length, eventSet.genericRequests.length,
      eventSet.offcoreRequests.length] = some (header cpu eventSet) := by
    apply packBytes_eq
    simp only [List.mem_cons, List.not_mem_nil, or_false, forall_eq_or_imp, forall_eq]
    exact ⟨fits.cpu, by omega, by omega, by omega⟩
  simp only [PMUCtrl.buildRequestGroup, counts, fits.fixedMasks, fits.genericMasks,
    fits.offcoreMasks, Option.bind_eq_bind, Option.bind_some, Option.pure_def, requestBytes,
    fixedBlocks, genericBlocks, offcoreBlocks, List.append_assoc]

theorem sized_fixedBlocks (eventSet : EventSet) :
    ∀ block ∈ fixedBlocks eventSet, block.length = 3 :=
  length_of_mem_padded (fun request => (rfl : request.mask.length = 3)) rfl 3

theorem sized_genericBlocks (eventSet : EventSet) :
    ∀ block ∈ genericBlocks eventSet, block.length = 8 :=
  length_of_mem_padded (fun request => (rfl : request.mask.length = 8)) rfl 8

theorem sized_offcoreBlocks (eventSet : EventSet) :
    ∀ block ∈ offcoreBlocks eventSet, block.length = 8 :=
  length_of_mem_padded (fun _ => length_bytesOf 8 _) (length_bytesOf 8 0) 2

theorem length_fixedBlocks (fits : Fits cpu eventSet) : (fixedBlocks eventSet).flatten.length = 9 := by
  rw [length_flatten_blocks (sized_fixedBlocks eventSet), fixedBlocks,
    length_padded _ _ fits.fixedFew]

theorem length_genericBlocks (fits : Fits cpu eventSet) :
    (genericBlocks eventSet).flatten.length = 64 := by
  rw [length_flatten_blocks (sized_genericBlocks eventSet), genericBlocks,
    length_padded _ _ fits.genericFew]

theorem length_requestBytes (fits : Fits cpu eventSet) :
    (requestBytes cpu eventSet).length = 93 := by
  have offcore : (offcoreBlocks eventSet).flatten.length = 16 := by
    rw [length_flatten_blocks (sized_offcoreBlocks eventSet), offcoreBlocks,
      length_padded _ _ fits.offcoreFew]
  rw [requestBytes, List.length_append, List.length_append, List.length_append,
    length_fixedBlocks fits, length_genericBlocks fits, offcore]
  rfl

theorem read_fixed (eventSet : EventSet) (index : Fin 3) :
    ((requestBytes cpu eventSet).drop (4 + 3 * index.val)).take 3 =
      (eventSet.fixedRequests[index.val]?.map FixedPmuRequest.mask).getD
        FixedPmuRequest.defaultMask :=
  take_drop_blocks rfl (sized_fixedBlocks eventSet) (getElem_padded _ _ _ index.isLt)

theorem read_generic (fits : Fits cpu eventSet) (index : Fin 8) :
    ((requestBytes cpu eventSet).drop (13 + 8 * index.val)).take 8 =
      (eventSet.genericRequests[index.val]?.map GenericPmuRequest.mask).getD
        GenericPmuRequest.defaultMask := by
  have before : (header cpu eventSet ++ (fixedBlocks eventSet).flatten).length = 13 := by
    rw [List.length_append, length_fixedBlocks fits]
    rfl
  rw [requestBytes, ← List.append_assoc]
  exact take_drop_blocks before (sized_genericBlocks eventSet) (getElem_padded _ _ _ index.isLt)

theorem read_offcore (fits : Fits cpu eventSet) (index : Fin 2) :
    ((requestBytes cpu eventSet).drop (77 + 8 * index.val)).take 8 =
      (eventSet.offcoreRequests[index.val]?.map OffcorePmuRequest.mask).getD
        OffcorePmuRequest.defaultMask := by
  have before : (header cpu eventSet ++ (fixedBlocks eventSet).flatten ++
      (genericBlocks eventSet).flatten).length = 77 := by
    rw [List.length_append, List.length_append, length_fixedBlocks fits, length_genericBlocks fits]
    rfl
  rw [requestBytes, ← List.append_assoc, ← List.append_assoc,
    ← List.append_nil (offcoreBlocks eventSet).flatten]
  exact take_drop_blocks before (sized_offcoreBlocks eventSet) (getElem_padded _ _ _ index.isLt)

end Layout

section Understanding

open RequestParser

variable {cpu : Nat} {eventSet : EventSet}

theorem toNat_ofNat_of_lt {value : Nat} (small : value < 2 ^ 8) : (UInt8.ofNat value).toNat = value := by
  rw [UInt8.toNat_ofNat', Nat.mod_eq_of_lt small]

theorem toNat_ofNat_bool (flag : Bool) : (UInt8.ofNat flag.toNat).toNat = flag.toNat :=
  toNat_ofNat_of_lt (toNat_lt_of_bool flag)

def fixedEventOf (mask : List UInt8) : PMUFixedEvent :=
  ⟨mask.getD 0 0, mask.getD 1 0, mask.getD 2 0⟩

def gpEventOf (mask : List UInt8) : PMUGpEvent :=
  ⟨mask.getD 0 0, mask.getD 1 0, mask.getD 2 0, mask.getD 3 0, mask.getD 4 0, mask.getD 5 0,
    mask.getD 6 0, mask.getD 7 0⟩

theorem fixedEvents_eq (cpu : Nat) (eventSet : EventSet) (index : Fin 3) :
    (pmuRequestOf (requestBytes cpu eventSet)).fixedEvents index =
      fixedEventOf ((eventSet.fixedRequests[index.val]?.map FixedPmuRequest.mask).getD
        FixedPmuRequest.defaultMask) := by
  have byte : ∀ offset < 3, _ := fun offset inside =>
    getD_of_take_drop 0 (@read_fixed cpu eventSet index) inside
  rw [fixedEventOf, ← byte 0 (by decide), ← byte 1 (by decide), ← byte 2 (by decide)]
  rfl

theorem gpEvents_eq (fits : Fits cpu eventSet) (index : Fin 8) :
    (pmuRequestOf (requestBytes cpu eventSet)).gpEvents index =
      gpEventOf ((eventSet.genericRequests[index.val]?.map GenericPmuRequest.mask).getD
        GenericPmuRequest.defaultMask) := by
  have byte : ∀ offset < 8, _ := fun offset inside =>
    getD_of_take_drop 0 (read_generic fits index) inside
  rw [gpEventOf, ← byte 0 (by decide), ← byte 1 (by decide), ← byte 2 (by decide),
    ← byte 3 (by decide), ← byte 4 (by decide), ← byte 5 (by decide), ← byte 6 (by decide),
    ← byte 7 (by decide)]
  rfl

theorem offcoreEvents_eq (fits : Fits cpu eventSet) (index : Fin 2) :
    (pmuRequestOf (requestBytes cpu eventSet)).offcoreEvents index =
      UInt64.ofNat (numberOf ((eventSet.offcoreRequests[index.val]?.map
        OffcorePmuRequest.mask).getD OffcorePmuRequest.defaultMask)) := by
  rw [← read_offcore fits index]
  rfl

theorem fixedEntry_mask (fits : Fits cpu eventSet) {request : Option FixedPmuRequest}
    (listed : ∀ known ∈ request, known ∈ eventSet.fixedRequests) :
    FixedEntry request
      (fixedEventOf ((request.map FixedPmuRequest.mask).getD FixedPmuRequest.defaultMask)) := by
  cases request with
  | none => exact ⟨rfl, rfl, rfl⟩
  | some request =>
      exact ⟨toNat_ofNat_of_lt (fits.fixed request (listed request rfl)),
        toNat_ofNat_bool request.user, toNat_ofNat_bool request.kernel⟩

theorem genericEntry_mask (fits : Fits cpu eventSet) {request : Option GenericPmuRequest}
    (listed : ∀ known ∈ request, known ∈ eventSet.genericRequests) :
    GenericEntry request
      (gpEventOf ((request.map GenericPmuRequest.mask).getD GenericPmuRequest.defaultMask)) := by
  cases request with
  | none => rfl
  | some request =>
      obtain ⟨eventSelect, unitMask, counterMask, anyThread⟩ :=
        fits.generic request (listed request rfl)
      exact ⟨toNat_ofNat_of_lt eventSelect, toNat_ofNat_of_lt unitMask,
        toNat_ofNat_bool request.user, toNat_ofNat_bool request.kernel,
        toNat_ofNat_bool request.event.invert, toNat_ofNat_of_lt counterMask,
        toNat_ofNat_bool request.event.edgeDetect, toNat_ofNat_of_lt anyThread⟩

theorem offcoreEntry_mask (fits : Fits cpu eventSet) {request : Option OffcorePmuRequest}
    (listed : ∀ known ∈ request, known ∈ eventSet.offcoreRequests) :
    OffcoreEntry request
      (UInt64.ofNat (numberOf ((request.map OffcorePmuRequest.mask).getD
        OffcorePmuRequest.defaultMask))) := by
  cases request with
  | none => rfl
  | some request =>
      have small := fits.offcore request (listed request rfl)
      have wide : (256 : Nat) ^ 8 = 2 ^ 64 := rfl
      simp only [OffcoreEntry, Option.map_some, Option.getD_some, OffcorePmuRequest.mask,
        numberOf_bytesOf, UInt64.toNat_ofNat', wide, Nat.mod_eq_of_lt small]

theorem mem_of_getElem {α : Type} {requests : List α} {index : Nat} :
    ∀ known ∈ requests[index]?, known ∈ requests :=
  fun _ found => List.mem_of_getElem? found

theorem understood_requestBytes (fits : Fits cpu eventSet) :
    Understood cpu eventSet (pmuRequestOf (requestBytes cpu eventSet)) where
  cpu := toNat_ofNat_of_lt fits.cpu
  fixedEvtCount := toNat_ofNat_of_lt (Nat.lt_of_le_of_lt fits.fixedFew (by decide))
  gpEvtCount := toNat_ofNat_of_lt (Nat.lt_of_le_of_lt fits.genericFew (by decide))
  offcoreEvtCount := toNat_ofNat_of_lt (Nat.lt_of_le_of_lt fits.offcoreFew (by decide))
  fixedEvents := by
    intro index
    rw [fixedEvents_eq]
    exact fixedEntry_mask fits mem_of_getElem
  gpEvents := by
    intro index
    rw [gpEvents_eq fits]
    exact genericEntry_mask fits mem_of_getElem
  offcoreEvents := by
    intro index
    rw [offcoreEvents_eq fits]
    exact offcoreEntry_mask fits mem_of_getElem

theorem parsePmuRequest_pduOf (fits : Fits cpu eventSet) :
    parsePmuRequest (PMUCtrl.pduOf (requestBytes cpu eventSet)) =
      .ok (pmuRequestOf (requestBytes cpu eventSet)) := by
  have length : (PMUCtrl.pduOf (requestBytes cpu eventSet)).length = 3 * 93 - 1 := by
    rw [length_pduOf, length_requestBytes fits]
  rw [parsePmuRequest, if_neg (not_not.mpr length), parseBytes_pduOf]
  rfl

end Understanding

/--
The target understands what the profiler has written, and refuses every text that is not
made of as many bytes, each of two digits.
-/
theorem pmuRequest_roundTrip {cpu : Nat} {eventSet : EventSet} (fits : Fits cpu eventSet) :
    (∃ bytes request, PMUCtrl.buildRequestGroup cpu eventSet = some bytes ∧
      RequestParser.parsePmuRequest (PMUCtrl.pduOf bytes) = .ok request ∧
      Understood cpu eventSet request) ∧
    ∀ text : List Char, (text.length ≠ 3 * 93 - 1 ∨ ∃ index < 93, ¬ByteAt text index) →
      ∃ errors, RequestParser.parsePmuRequest text = .error errors :=
  ⟨⟨_, _, fits.buildRequestGroup_eq, parsePmuRequest_pduOf fits, understood_requestBytes fits⟩,
    fun _ malformed => parsePmuRequest_error malformed⟩

def branchMisses : CoreEvent where
  name := "BR_MISP_RETIRED.ALL_BRANCHES".toList
  eventSelect := 0xC5
  unitMask := 0
  counterMask := 0
  invert := false
  edgeDetect := false
  anyThread := 0
  msrValue := 0
  validPmc := [0, 1, 2, 3]

def oneOfEach : EventSet where
  cpuSet := [7]
  genericRequests := [⟨"misses".toList, branchMisses.name, branchMisses, true, false⟩]
  offcoreRequests := [⟨"reads".toList, "OFFCORE_RESPONSE".toList,
    { branchMisses with msrValue := 0x3F803C0001 }⟩]
  fixedRequests := [⟨"cycles".toList, "CPU_CLK_UNHALTED.THREAD".toList, 1, true, true⟩]

theorem pmuRequest_roundTrip_oneOfEach :
    (∃ bytes request, PMUCtrl.buildRequestGroup 7 oneOfEach = some bytes ∧
      RequestParser.parsePmuRequest (PMUCtrl.pduOf bytes) = .ok request ∧
      Understood 7 oneOfEach request) ∧
    ∃ errors, RequestParser.parsePmuRequest "07".toList = .error errors := by
  have fits : Fits 7 oneOfEach := by
    refine ⟨by decide, by decide, by decide, by decide, ?_, ?_, ?_⟩
    · intro request listed
      obtain rfl := List.mem_singleton.mp listed
      decide
    · intro request listed
      obtain rfl := List.mem_singleton.mp listed
      decide
    · intro request listed
      obtain rfl := List.mem_singleton.mp listed
      decide
  have both := pmuRequest_roundTrip fits
  exact ⟨both.1, both.2 "07".toList (.inl (by decide))⟩

end Xpedite.Profiler
