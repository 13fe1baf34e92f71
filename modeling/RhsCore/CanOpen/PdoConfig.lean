import Mathlib.Algebra.Group.Nat.Defs
import RhsCore.Lib.Store

/-!
# How PDOs are configured

`can_open_ctrl_dev.c` over the tables of `od_common_defs.c`: the parameters of a PDO and what
is mapped into it are written into a node's object dictionary, each by `co_set_sdo`.  An
assertion that fails stops the run.

The calls below are for one node and succeed; `co_set_sdo` writes so many bytes into the
entry.  The index is shifted as an unsigned word.

## Main definitions

* `coRpdoConfig`, `coRpdoMap`, `coRpdoMapGroup` and their siblings — what a call writes.
* `Setting`, `Setting.entry` — what can be configured, and where it is in the dictionary.
* `mapped` — how a node reads a mapping.
* `pdo_config_refines` — calls set what they are about, and nothing else.
-/

namespace RhsCore.PdoConfig

/-! ## The tables -/

inductive NPDO
  | numPDO1
  | numPDO2
  | numPDO3
  | numPDO4
  | numPDOMax
  deriving DecidableEq, Repr

def NPDO.toNat : NPDO → ℕ
  | numPDO1 => 0
  | numPDO2 => 1
  | numPDO3 => 2
  | numPDO4 => 3
  | numPDOMax => 4

/-- `PDOMap`: `PDOMapNum` is 0, `PDOMap1` to `PDOMap8` follow, and `PDOMapMax` is 9. -/
abbrev PDOMap := Fin 10

def pdoMapNum : PDOMap := 0
def pdoMapMax : PDOMap := 9

inductive PDOField
  | config
  | id
  | type
  | inhibit
  | res
  | eventTime
  deriving DecidableEq, Repr

structure ODFieldType where
  index : UInt16
  sub : UInt8
  size : UInt8
  deriving DecidableEq, Repr

def odRxPdoId : ODFieldType := ⟨0x1400, 0x01, 4⟩
def odRxPdoType : ODFieldType := ⟨0x1400, 0x02, 1⟩
def odRxPdoInhubit : ODFieldType := ⟨0x1400, 0x03, 2⟩
def odRxPdoRes : ODFieldType := ⟨0x1400, 0x04, 1⟩
def odRxPdoEventTimer : ODFieldType := ⟨0x1400, 0x05, 2⟩

def odRxPdoMap : Vector ODFieldType 9 :=
  #v[⟨0x1600, 0x00, 1⟩, ⟨0x1600, 0x01, 4⟩, ⟨0x1600, 0x02, 4⟩, ⟨0x1600, 0x03, 4⟩,
    ⟨0x1600, 0x04, 4⟩, ⟨0x1600, 0x05, 4⟩, ⟨0x1600, 0x06, 4⟩, ⟨0x1600, 0x07, 4⟩,
    ⟨0x1600, 0x08, 4⟩]

def odTxPdoId : ODFieldType := ⟨0x1800, 0x01, 4⟩
def odTxPdoType : ODFieldType := ⟨0x1800, 0x02, 1⟩
def odTxPdoInhubit : ODFieldType := ⟨0x1800, 0x03, 2⟩
def odTxPdoRes : ODFieldType := ⟨0x1800, 0x04, 1⟩
def odTxPdoEventTimer : ODFieldType := ⟨0x1800, 0x05, 2⟩

def odTxPdoMap : Vector ODFieldType 9 :=
  #v[⟨0x1A00, 0x00, 1⟩, ⟨0x1A00, 0x01, 4⟩, ⟨0x1A00, 0x02, 4⟩, ⟨0x1A00, 0x03, 4⟩,
    ⟨0x1A00, 0x04, 4⟩, ⟨0x1A00, 0x05, 4⟩, ⟨0x1A00, 0x06, 4⟩, ⟨0x1A00, 0x07, 4⟩,
    ⟨0x1A00, 0x08, 4⟩]

/-! ## The calls -/

/-- The arguments of `co_set_sdo`: the entry, and the bytes that are written to it. -/
structure Write where
  index : UInt16
  sub : UInt8
  bytes : List UInt8
  deriving DecidableEq, Repr

def ODFieldType.add (f : ODFieldType) (npdo : NPDO) : ODFieldType :=
  { f with index := f.index + .ofNat npdo.toNat }

/-- `co_set_sdo` with the field's size, and a pointer to `data`. -/
def coSetSdo (f : ODFieldType) (data : List UInt8) : Write :=
  ⟨f.index, f.sub, data.take f.size.toNat⟩

/-- `sdo_set_pdo`; `none` is `rhs_crash`, or an assertion that fails. -/
def sdoSetPdo (pdoField : PDOField) (npdo : NPDO) (isTx : Bool) : Option ODFieldType :=
  if npdo.toNat < NPDO.numPDOMax.toNat then
    match pdoField with
    | .config => none
    | .id => some ((if isTx then odTxPdoId else odRxPdoId).add npdo)
    | .type => some ((if isTx then odTxPdoType else odRxPdoType).add npdo)
    | .inhibit => some ((if isTx then odTxPdoInhubit else odRxPdoInhubit).add npdo)
    | .res => some ((if isTx then odTxPdoRes else odRxPdoRes).add npdo)
    | .eventTime => some ((if isTx then odTxPdoEventTimer else odRxPdoEventTimer).add npdo)
  else none

/-- `co_rpdo_config` and `co_tpdo_config`. -/
def coPdoConfig (isTx : Bool) (npdo : NPDO) (pdoField : PDOField) (data : List UInt8) :
    Option Write :=
  (sdoSetPdo pdoField npdo isTx).map fun field => coSetSdo field data

def coRpdoConfig := coPdoConfig false
def coTpdoConfig := coPdoConfig true

/-- `PDO_TO_MAP` -/
def pdoToMap (index : UInt16) (subindex size : UInt8) : UInt32 :=
  (index.toUInt32 <<< 16) ||| (subindex.toUInt32 <<< 8) ||| (size.toUInt32 <<< 3)

/-- The bytes of a word in memory. -/
def bytesOf (word : UInt32) : List UInt8 :=
  [word.toUInt8, (word >>> 8).toUInt8, (word >>> 16).toUInt8, (word >>> 24).toUInt8]

/-- `sdo_set_pdo_map_generic`; `none` is behind the table. -/
def sdoSetPdoMapGeneric (numMap : PDOMap) (isTx : Bool) : Option ODFieldType :=
  (if isTx then odTxPdoMap else odRxPdoMap)[numMap.val]?

/-- `co_rpdo_map` and `co_tpdo_map`, which do not look at `npdo`. -/
def coPdoMap (isTx : Bool) (npdo : NPDO) (nmap : PDOMap) (ind : UInt16) (sub sz : UInt8) :
    Option Write :=
  if pdoMapNum < nmap ∧ nmap < pdoMapMax then
    (sdoSetPdoMapGeneric nmap isTx).map fun field =>
      coSetSdo (field.add npdo) (bytesOf (pdoToMap ind sub sz))
  else none

def coRpdoMap := coPdoMap false
def coTpdoMap := coPdoMap true

/-- `sdo_set_pdo_map_group` -/
def sdoSetPdoMapGroup (npdo : NPDO) (isTx : Bool) : ODFieldType :=
  ((if isTx then odTxPdoMap else odRxPdoMap)[0]).add npdo

/-- `co_rpdo_map_group` and `co_tpdo_map_group`. -/
def coPdoMapGroup (isTx : Bool) (npdo : NPDO) (nmap : PDOMap) : Option Write :=
  if npdo.toNat < NPDO.numPDOMax.toNat ∧ nmap < pdoMapMax then
    some (coSetSdo (sdoSetPdoMapGroup npdo isTx) (bytesOf (.ofNat nmap.val)))
  else none

def coRpdoMapGroup := coPdoMapGroup false
def coTpdoMapGroup := coPdoMapGroup true

/-- A call for a node. -/
inductive Call
  | config (isTx : Bool) (npdo : NPDO) (pdoField : PDOField) (data : List UInt8)
  | map (isTx : Bool) (npdo : NPDO) (nmap : PDOMap) (ind : UInt16) (sub sz : UInt8)
  | mapGroup (isTx : Bool) (npdo : NPDO) (nmap : PDOMap)
  deriving DecidableEq, Repr

def Call.write : Call → Option Write
  | config isTx npdo pdoField data =>
      (if isTx then coTpdoConfig else coRpdoConfig) npdo pdoField data
  | map isTx npdo nmap ind sub sz => (if isTx then coTpdoMap else coRpdoMap) npdo nmap ind sub sz
  | mapGroup isTx npdo nmap => (if isTx then coTpdoMapGroup else coRpdoMapGroup) npdo nmap

/-- The object dictionary of a node. -/
abbrev OD := UInt16 × UInt8 → List UInt8

/-- One call after the other. -/
def run (od : OD) : List Call → Option OD
  | [] => some od
  | c :: cs => c.write.bind fun w => run (Function.update od (w.index, w.sub) w.bytes) cs

/-! ## What is configured -/

/-- A parameter of a PDO, or a place in its mapping; place 0 is how many are used. -/
inductive Item
  | field (f : PDOField)
  | place (k : Fin 9)
  deriving DecidableEq, Repr

/-- What can be set of the PDOs of a node. -/
structure Setting where
  isTx : Bool
  npdo : NPDO
  item : Item
  deriving DecidableEq, Repr

def PDOField.sub : PDOField → ℕ
  | config => 0
  | id => 1
  | type => 2
  | inhibit => 3
  | res => 4
  | eventTime => 5

/-- How many bytes a parameter has. -/
def PDOField.size : PDOField → ℕ
  | config => 1
  | id => 4
  | type => 1
  | inhibit => 2
  | res => 1
  | eventTime => 2

/-- Where it is in the object dictionary. -/
def Setting.entry (s : Setting) : UInt16 × UInt8 :=
  match s.item with
  | .field f => (.ofNat ((if s.isTx then 0x1800 else 0x1400) + s.npdo.toNat), .ofNat f.sub)
  | .place k => (.ofNat ((if s.isTx then 0x1A00 else 0x1600) + s.npdo.toNat), .ofNat k.val)

/-- What a call sets, and to what. -/
def Call.setting : Call → Setting × List UInt8
  | config isTx npdo f data => (⟨isTx, npdo, .field f⟩, data.take f.size)
  | map isTx npdo nmap ind sub sz =>
      (⟨isTx, npdo, .place (.ofNat 9 nmap.val)⟩, bytesOf (pdoToMap ind sub sz))
  | mapGroup isTx npdo nmap => (⟨isTx, npdo, .place 0⟩, [.ofNat nmap.val])

/-- How a node reads a place of a mapping: index, subindex, and length in bits. -/
def mapped (bytes : List UInt8) : Option (ℕ × ℕ × ℕ) :=
  match bytes with
  | [length, sub, low, high] => some (low.toNat + 256 * high.toNat, sub.toNat, length.toNat)
  | _ => none

theorem NPDO.toNat_lt (npdo : NPDO) : npdo.toNat < 5 := by
  cases npdo <;> decide

theorem NPDO.toNat_injective : Function.Injective NPDO.toNat := by
  intro p p' h
  cases p <;> cases p' <;> first | rfl | cases h

theorem PDOField.sub_lt (f : PDOField) : f.sub < 6 := by
  cases f <;> decide

theorem PDOField.sub_injective : Function.Injective PDOField.sub := by
  intro f f' h
  cases f <;> cases f' <;> first | rfl | cases h

/-- The first index of what a setting belongs to. -/
def Setting.base (s : Setting) : ℕ :=
  match s.item, s.isTx with
  | .field _, false => 0x1400
  | .field _, true => 0x1800
  | .place _, false => 0x1600
  | .place _, true => 0x1A00

def Item.sub : Item → ℕ
  | .field f => f.sub
  | .place k => k.val

theorem Setting.entry_eq (s : Setting) :
    s.entry = (.ofNat (s.base + s.npdo.toNat), .ofNat s.item.sub) := by
  obtain ⟨isTx, npdo, item⟩ := s
  cases item <;> cases isTx <;> rfl

theorem Item.sub_lt (i : Item) : i.sub < 9 := by
  cases i with
  | field f => exact Nat.lt_trans f.sub_lt (by decide)
  | place k => exact k.isLt

theorem ofNat_inj_of_lt {a b : ℕ} (ha : a < 2 ^ 16) (hb : b < 2 ^ 16)
    (h : UInt16.ofNat a = UInt16.ofNat b) : a = b := by
  have := congrArg UInt16.toNat h
  rwa [UInt16.toNat_ofNat_of_lt' ha, UInt16.toNat_ofNat_of_lt' hb] at this

theorem ofNat_inj_of_lt' {a b : ℕ} (ha : a < 2 ^ 8) (hb : b < 2 ^ 8)
    (h : UInt8.ofNat a = UInt8.ofNat b) : a = b := by
  have := congrArg UInt8.toNat h
  rwa [UInt8.toNat_ofNat_of_lt' ha, UInt8.toNat_ofNat_of_lt' hb] at this

theorem entry_injective : Function.Injective Setting.entry := by
  intro s s' h
  rw [s.entry_eq, s'.entry_eq, Prod.mk.injEq] at h
  have hb : ∀ t : Setting, t.base ≤ 0x1A00 := by
    rintro ⟨isTx, npdo, item⟩
    cases item <;> cases isTx <;> simp [Setting.base]
  have hindex : s.base + s.npdo.toNat = s'.base + s'.npdo.toNat := by
    apply ofNat_inj_of_lt _ _ h.1
    · have := hb s; have := s.npdo.toNat_lt; omega
    · have := hb s'; have := s'.npdo.toNat_lt; omega
  have hsub : s.item.sub = s'.item.sub := by
    apply ofNat_inj_of_lt' _ _ h.2
    · exact Nat.lt_trans s.item.sub_lt (by decide)
    · exact Nat.lt_trans s'.item.sub_lt (by decide)
  have hp := s.npdo.toNat_lt
  have hp' := s'.npdo.toNat_lt
  obtain ⟨isTx, npdo, item⟩ := s
  obtain ⟨isTx', npdo', item'⟩ := s'
  cases item <;> cases item' <;> cases isTx <;> cases isTx' <;>
    simp only [Setting.base] at hindex hp hp' <;> try omega
  all_goals
    rw [NPDO.toNat_injective (Nat.add_left_cancel hindex)]
    first
    | rw [PDOField.sub_injective hsub]
    | rw [Fin.ext hsub]

/-! ## Calls set what they are about -/

theorem sdoSetPdo_eq {f : PDOField} {npdo : NPDO} {isTx : Bool} {field : ODFieldType}
    (h : sdoSetPdo f npdo isTx = some field) :
    (field.index, field.sub) = (⟨isTx, npdo, .field f⟩ : Setting).entry ∧
      field.size.toNat = f.size := by
  cases f with
  | config => simp [sdoSetPdo] at h
  | id | type | inhibit | res | eventTime =>
      simp only [sdoSetPdo, Option.ite_none_right_eq_some, Option.some.injEq] at h
      rw [← h.2]
      cases isTx <;> cases npdo <;> decide

theorem pdoMap_eq (isTx : Bool) (npdo : NPDO) (k : Fin 9) :
    let field := (if isTx then odTxPdoMap else odRxPdoMap)[k]
    ((field.add npdo).index, (field.add npdo).sub) = (⟨isTx, npdo, .place k⟩ : Setting).entry ∧
      field.size.toNat = if k = 0 then 1 else 4 := by
  cases isTx <;> cases npdo <;> revert k <;> decide

theorem write_config (isTx : Bool) (npdo : NPDO) (f : PDOField) (data : List UInt8) :
    (Call.config isTx npdo f data).write = coPdoConfig isTx npdo f data := by
  cases isTx <;> rfl

theorem write_map (isTx : Bool) (npdo : NPDO) (nmap : PDOMap) (ind : UInt16) (sub sz : UInt8) :
    (Call.map isTx npdo nmap ind sub sz).write = coPdoMap isTx npdo nmap ind sub sz := by
  cases isTx <;> rfl

theorem write_mapGroup (isTx : Bool) (npdo : NPDO) (nmap : PDOMap) :
    (Call.mapGroup isTx npdo nmap).write = coPdoMapGroup isTx npdo nmap := by
  cases isTx <;> rfl

theorem write_eq_setting {c : Call} {w : Write} (h : c.write = some w) :
    (w.index, w.sub) = c.setting.1.entry ∧ w.bytes = c.setting.2 := by
  cases c with
  | config isTx npdo f data =>
      rw [write_config, coPdoConfig, Option.map_eq_some_iff] at h
      obtain ⟨field, hfield, rfl⟩ := h
      obtain ⟨hentry, hsize⟩ := sdoSetPdo_eq hfield
      exact ⟨hentry, congrArg (List.take · data) hsize⟩
  | map isTx npdo nmap ind sub sz =>
      simp only [write_map, coPdoMap, Option.ite_none_right_eq_some] at h
      obtain ⟨⟨hpos, hlt⟩, h⟩ := h
      have hk : nmap.val < 9 := hlt
      have hval : (Fin.ofNat 9 nmap.val).val = nmap.val := Nat.mod_eq_of_lt hk
      rw [sdoSetPdoMapGeneric, Vector.getElem?_eq_getElem hk, Option.map_some,
        Option.some.injEq] at h
      obtain ⟨hentry, hsize⟩ := pdoMap_eq isTx npdo (.ofNat 9 nmap.val)
      have hne : Fin.ofNat 9 nmap.val ≠ 0 := by
        intro h0
        have h0 := congrArg Fin.val h0
        rw [hval] at h0
        exact absurd hpos (by simp [pdoMapNum, Fin.ext_iff, h0])
      rw [if_neg hne] at hsize
      simp only [Fin.getElem_fin, hval] at hentry hsize
      rw [← h]
      refine ⟨hentry, ?_⟩
      simp only [coSetSdo, ODFieldType.add, hsize, Call.setting]
      rfl
  | mapGroup isTx npdo nmap =>
      simp only [write_mapGroup, coPdoMapGroup, Option.ite_none_right_eq_some,
        Option.some.injEq] at h
      obtain ⟨hentry, hsize⟩ := pdoMap_eq isTx npdo 0
      rw [← h.2]
      refine ⟨hentry, ?_⟩
      rw [if_pos rfl] at hsize
      have hbyte : ∀ n : PDOMap, (UInt32.ofNat n.val).toUInt8 = UInt8.ofNat n.val := by
        decide
      rw [Call.setting, ← hbyte nmap]
      cases isTx <;> rfl

theorem run_eq_writeAll {od od' : OD} {calls : List Call} (h : run od calls = some od') :
    od' = writeAll (calls.map fun c => (c.setting.1.entry, c.setting.2)) od := by
  induction calls generalizing od with
  | nil => exact (Option.some.inj h).symm
  | cons c cs ih =>
      rw [run, Option.bind_eq_some_iff] at h
      obtain ⟨w, hw, h⟩ := h
      obtain ⟨hentry, hbytes⟩ := write_eq_setting hw
      rw [List.map_cons, writeAll, ← hentry, ← hbytes]
      exact ih h

/-! ## How a mapping is read -/

theorem shiftLeft_mod {a n m : ℕ} (ha : a < 2 ^ n) (hnm : n + m ≤ 32) :
    a <<< m % 2 ^ 32 = a <<< m := by
  apply Nat.mod_eq_of_lt
  rw [Nat.shiftLeft_eq]
  calc a * 2 ^ m < 2 ^ n * 2 ^ m := Nat.mul_lt_mul_of_pos_right ha (Nat.two_pow_pos m)
    _ = 2 ^ (n + m) := (Nat.pow_add ..).symm
    _ ≤ 2 ^ 32 := Nat.pow_le_pow_right (by decide) hnm

theorem pdoToMap_toNat (ind : UInt16) (sub sz : UInt8) :
    (pdoToMap ind sub sz).toNat =
      ind.toNat <<< 16 ||| sub.toNat <<< 8 ||| sz.toNat <<< 3 := by
  have h16 : (16 : UInt32).toNat % 32 = 16 := rfl
  have h8 : (8 : UInt32).toNat % 32 = 8 := rfl
  have h3 : (3 : UInt32).toNat % 32 = 3 := rfl
  rw [pdoToMap, UInt32.toNat_or, UInt32.toNat_or, UInt32.toNat_shiftLeft,
    UInt32.toNat_shiftLeft, UInt32.toNat_shiftLeft, UInt16.toNat_toUInt32,
    UInt8.toNat_toUInt32, UInt8.toNat_toUInt32, h16, h8, h3,
    shiftLeft_mod ind.toNat_lt (by decide), shiftLeft_mod sub.toNat_lt (by decide),
    shiftLeft_mod sz.toNat_lt (by decide)]

/-- A byte of a mapping, as each of the three numbers puts its bits there. -/
theorem byte_pdoToMap (ind : UInt16) (sub sz : UInt8) {s : UInt32} {d : ℕ}
    (hd : 2 ^ (s.toNat % 32) = d) :
    ((pdoToMap ind sub sz) >>> s).toUInt8.toNat =
      ind.toNat * 65536 / d % 256 ||| sub.toNat * 256 / d % 256 ||| sz.toNat * 8 / d % 256 := by
  have hmod (a b : ℕ) : (a ||| b) % 256 = a % 256 ||| b % 256 :=
    Nat.or_mod_two_pow (n := 8)
  rw [UInt32.toNat_toUInt8, UInt32.toNat_shiftRight, pdoToMap_toNat,
    Nat.shiftRight_or_distrib, Nat.shiftRight_or_distrib, hmod, hmod]
  simp only [Nat.shiftLeft_eq, Nat.shiftRight_eq_div_pow, hd]

/-- Bits 8 and up of a length in bits are put into the subindex. -/
theorem mapped_bytesOf (ind : UInt16) (sub sz : UInt8) :
    mapped (bytesOf (pdoToMap ind sub sz)) =
      some (ind.toNat, sub.toNat ||| sz.toNat / 32, 8 * sz.toNat % 256) := by
  have hi : ind.toNat < 65536 := ind.toNat_lt
  have hs : sub.toNat < 256 := sub.toNat_lt
  have hz : sz.toNat < 256 := sz.toNat_lt
  have hlength : (pdoToMap ind sub sz).toUInt8.toNat = 8 * sz.toNat % 256 := by
    have ⟨h0, h1, h2⟩ : ind.toNat * 65536 / 1 % 256 = 0 ∧ sub.toNat * 256 / 1 % 256 = 0 ∧
        sz.toNat * 8 / 1 % 256 = 8 * sz.toNat % 256 := ⟨by omega, by omega, by omega⟩
    have h := byte_pdoToMap ind sub sz (s := 0) (d := 1) rfl
    rwa [UInt32.shiftRight_zero, h0, h1, h2, Nat.zero_or, Nat.zero_or] at h
  have hsub : (pdoToMap ind sub sz >>> 8).toUInt8.toNat = sub.toNat ||| sz.toNat / 32 := by
    have ⟨h0, h1, h2⟩ : ind.toNat * 65536 / 256 % 256 = 0 ∧
        sub.toNat * 256 / 256 % 256 = sub.toNat ∧
        sz.toNat * 8 / 256 % 256 = sz.toNat / 32 := ⟨by omega, by omega, by omega⟩
    rw [byte_pdoToMap ind sub sz (d := 256) rfl, h0, h1, h2, Nat.zero_or]
  have hlow : (pdoToMap ind sub sz >>> 16).toUInt8.toNat = ind.toNat % 256 := by
    have ⟨h0, h1, h2⟩ : ind.toNat * 65536 / 65536 % 256 = ind.toNat % 256 ∧
        sub.toNat * 256 / 65536 % 256 = 0 ∧
        sz.toNat * 8 / 65536 % 256 = 0 := ⟨by omega, by omega, by omega⟩
    rw [byte_pdoToMap ind sub sz (d := 65536) rfl, h0, h1, h2, Nat.or_zero, Nat.or_zero]
  have hhigh : (pdoToMap ind sub sz >>> 24).toUInt8.toNat = ind.toNat / 256 := by
    have ⟨h0, h1, h2⟩ : ind.toNat * 65536 / 16777216 % 256 = ind.toNat / 256 ∧
        sub.toNat * 256 / 16777216 % 256 = 0 ∧
        sz.toNat * 8 / 16777216 % 256 = 0 := ⟨by omega, by omega, by omega⟩
    rw [byte_pdoToMap ind sub sz (d := 16777216) rfl, h0, h1, h2, Nat.or_zero, Nat.or_zero]
  rw [bytesOf, mapped, hlength, hsub, hlow, hhigh, Nat.mod_add_div]

theorem mapped_bytesOf_iff (ind : UInt16) (sub sz : UInt8) :
    mapped (bytesOf (pdoToMap ind sub sz)) = some (ind.toNat, sub.toNat, 8 * sz.toNat) ↔
      sz.toNat < 32 := by
  rw [mapped_bytesOf, Option.some.injEq, Prod.mk.injEq, Prod.mk.injEq]
  constructor
  · rintro ⟨-, -, hlength⟩
    omega
  · intro h
    have hover : sz.toNat / 32 = 0 := Nat.div_eq_of_lt h
    rw [hover, Nat.or_zero]
    exact ⟨rfl, rfl, Nat.mod_eq_of_lt (by omega)⟩

/-- The dictionary refines the table of settings, of which a call writes one: what was set
last is there, other entries are as they were, and each setting has an entry of its own. -/
theorem pdo_config_refines {od od' : OD} {calls : List Call} (h : run od calls = some od') :
    (fun s : Setting => od' s.entry) =
        writeAll (calls.map Call.setting) (fun s => od s.entry) ∧
      (∀ k, (∀ s : Setting, s.entry ≠ k) → od' k = od k) ∧
      Function.Injective Setting.entry := by
  have hrun := run_eq_writeAll h
  rw [show (calls.map fun c => (c.setting.1.entry, c.setting.2)) =
    (calls.map Call.setting).map fun kv => (kv.1.entry, kv.2) by simp] at hrun
  rw [hrun]
  refine ⟨?_, ?_, entry_injective⟩
  · ext1 s
    exact writeAll_map entry_injective od s
  · intro k hk
    exact writeAll_map_of_not_mem hk od

theorem inhibit_times_refine :
    let calls : List Call :=
      [.config true .numPDO1 .inhibit [5, 0], .config true .numPDO2 .inhibit [7, 0],
        .config true .numPDO1 .inhibit [9, 0]]
    ∃ od', run (fun _ => []) calls = some od' ∧
      od' (⟨true, .numPDO1, .field .inhibit⟩ : Setting).entry = [9, 0] ∧
      od' (0x1017, 0) = [] := by
  intro calls
  obtain ⟨od', hrun⟩ : ∃ od', run (fun _ => []) calls = some od' := ⟨_, rfl⟩
  have h := pdo_config_refines hrun
  refine ⟨od', hrun, ?_, ?_⟩
  · refine (congrFun h.1 ⟨true, .numPDO1, .field .inhibit⟩).trans ?_
    decide
  · apply h.2.1
    intro s hs
    obtain ⟨isTx, npdo, item⟩ := s
    cases item <;> cases isTx <;> cases npdo <;> cases hs

/-- A node reads a mapping with bits 8 and up of its length in the subindex, as long as no later
call writes its place; so it reads it as it was meant exactly if the length in bits fits into a
byte. -/
theorem mapping_read_back_iff {od od' : OD} {calls later : List Call} {isTx : Bool}
    {npdo : NPDO} {nmap : PDOMap} {ind : UInt16} {sub sz : UInt8}
    (h : run od (calls ++ .map isTx npdo nmap ind sub sz :: later) = some od')
    (hlater : ∀ c ∈ later, c.setting.1 ≠ (Call.map isTx npdo nmap ind sub sz).setting.1) :
    mapped (od' (Call.map isTx npdo nmap ind sub sz).setting.1.entry) =
        some (ind.toNat, sub.toNat ||| sz.toNat / 32, 8 * sz.toNat % 256) ∧
      (mapped (od' (Call.map isTx npdo nmap ind sub sz).setting.1.entry) =
        some (ind.toNat, sub.toNat, 8 * sz.toNat) ↔ sz.toNat < 32) := by
  have hentry : od' (Call.map isTx npdo nmap ind sub sz).setting.1.entry =
      bytesOf (pdoToMap ind sub sz) := by
    rw [run_eq_writeAll h, List.map_append, List.map_cons, writeAll_append, writeAll,
      writeAll_of_not_mem, Function.update_self]
    · rfl
    · simp only [List.map_map, List.mem_map, not_exists, not_and]
      intro c hc hentry
      exact hlater c hc (entry_injective hentry)
  rw [hentry]
  exact ⟨mapped_bytesOf ind sub sz, mapped_bytesOf_iff ind sub sz⟩

/-- A length of 256 bits is read as one of 0 bits, of another subindex. -/
theorem long_mapping_misread :
    ∃ od', run (fun _ => [])
        ([] ++ .map true .numPDO1 1 0x2000 2 32 :: [.map true .numPDO2 1 0x2000 1 4]) =
          some od' ∧
      mapped (od' (Call.map true .numPDO1 1 0x2000 2 32).setting.1.entry) =
        some (0x2000, 3, 0) ∧
      mapped (od' (Call.map true .numPDO1 1 0x2000 2 32).setting.1.entry) ≠
        some (0x2000, 2, 256) := by
  have hrun : run (fun _ => [])
      ([] ++ .map true .numPDO1 1 0x2000 2 32 :: [.map true .numPDO2 1 0x2000 1 4]) = some _ :=
    rfl
  obtain ⟨hread, hiff⟩ := mapping_read_back_iff hrun (by decide)
  exact ⟨_, rfl, hread, fun h => absurd (hiff.mp h) (by decide)⟩

end RhsCore.PdoConfig
