import RunNBurn.Library.Checked

/-!
# KVarN configurations

The configuration record of the compressed cache, its validation, and the byte
layout of one compressed block in the device record buffer.
-/

namespace RunNBurn
namespace KvCache

open Library

structure KvarnConfig where
  keyBits : Nat
  valueBits : Nat
  group : Nat
  sinkTokens : Nat
  sinkhornIterations : Nat
deriving DecidableEq, Repr

namespace KvarnConfig

def k4V2G64 : KvarnConfig :=
  { keyBits := 4, valueBits := 2, group := 64, sinkTokens := 128,
    sinkhornIterations := 8 }

def k4V4G64 : KvarnConfig :=
  { keyBits := 4, valueBits := 4, group := 64, sinkTokens := 128,
    sinkhornIterations := 8 }

def k4V2G128 : KvarnConfig :=
  { keyBits := 4, valueBits := 2, group := 128, sinkTokens := 128,
    sinkhornIterations := 8 }

def k4V4G128 : KvarnConfig :=
  { keyBits := 4, valueBits := 4, group := 128, sinkTokens := 128,
    sinkhornIterations := 8 }

def validate (config : KvarnConfig) (headDim : Nat) : Checked Unit :=
  if config.keyBits ≠ 4 ∨ ¬ (config.valueBits = 2 ∨ config.valueBits = 4) then
    report s!"KVarN supports K4 with V2 or V4, got K{config.keyBits}V{config.valueBits}"
  else if ¬ (config.group = 64 ∨ config.group = 128) then
    report s!"KVarN tile size must be 64 or 128, got {config.group}"
  else if headDim < 4 ∨ headDim % 4 ≠ 0 then
    report s!"KVarN head dimension must be divisible by four, got {headDim}"
  else if config.sinkhornIterations = 0 then
    report "KVarN Sinkhorn iteration count must be positive"
  else
    .ok ()

theorem validate_eq_ok_iff (config : KvarnConfig) (headDim : Nat) :
    config.validate headDim = .ok () ↔
      config.keyBits = 4 ∧ (config.valueBits = 2 ∨ config.valueBits = 4) ∧
        (config.group = 64 ∨ config.group = 128) ∧
        4 <= headDim ∧ headDim % 4 = 0 ∧ 0 < config.sinkhornIterations := by
  unfold validate report
  constructor
  · intro h
    split at h
    · cases h
    · split at h
      · cases h
      · split at h
        · cases h
        · split at h
          · cases h
          · omega
  · intro h
    rw [if_neg (by omega), if_neg (by omega), if_neg (by omega),
      if_neg (by omega)]

theorem group_pos_of_validate
    {config : KvarnConfig} {headDim : Nat} (h : config.validate headDim = .ok ()) :
    0 < config.group := by
  have hfacts := (validate_eq_ok_iff config headDim).mp h
  omega

theorem headDim_pos_of_validate
    {config : KvarnConfig} {headDim : Nat} (h : config.validate headDim = .ok ()) :
    0 < headDim := by
  have hfacts := (validate_eq_ok_iff config headDim).mp h
  omega

end KvarnConfig

/-!
# Cache formats
-/

inductive KvCacheFormat where
  | f16
  | kvarnK4V2G64
  | kvarnK4V4G64
  | kvarnK4V2G128
  | kvarnK4V4G128
deriving DecidableEq, Repr

namespace KvCacheFormat

def kvarnConfig : KvCacheFormat -> Option KvarnConfig
  | f16 => none
  | kvarnK4V2G64 => some KvarnConfig.k4V2G64
  | kvarnK4V4G64 => some KvarnConfig.k4V4G64
  | kvarnK4V2G128 => some KvarnConfig.k4V2G128
  | kvarnK4V4G128 => some KvarnConfig.k4V4G128

end KvCacheFormat

/-!
# Device record layout

One compressed block is stored as eight consecutive byte fields.  A running
cursor hands out the offsets, and every size is computed with checked words.
-/

structure KvarnDeviceRecordLayout where
  keyPackedOffset : Nat
  keyScaleOffset : Nat
  keyZeroOffset : Nat
  keyTokenScaleOffset : Nat
  valuePackedOffset : Nat
  valueChannelScaleOffset : Nat
  valueTokenScaleOffset : Nat
  valueZeroOffset : Nat
  blockBytes : Nat
deriving DecidableEq, Repr

def takeDeviceRecordField (cursor bytes : Nat) : Checked (Nat × Nat) := do
  let next <- checkedAdd "KVarN device record size overflow" cursor bytes
  return (cursor, next)

namespace KvarnDeviceRecordLayout

def new (config : KvarnConfig) (numKvHeads headDim : Nat) :
    Checked KvarnDeviceRecordLayout := do
  config.validate headDim
  if numKvHeads = 0 then
    report "KVarN device record requires at least one KV head"
  else
    let channels <-
      checkedMul "KVarN device channel count overflow" numKvHeads headDim
    let tokenRows <-
      checkedMul "KVarN device token row count overflow" numKvHeads config.group
    let keyElements <-
      checkedMul "KVarN device key size overflow" channels config.group
    let valueElements <-
      checkedMul "KVarN device value size overflow" tokenRows headDim
    let channelScaleBytes <-
      checkedMul "KVarN device channel scale size overflow" channels 2
    let tokenScaleBytes <-
      checkedMul "KVarN device token scale size overflow" tokenRows 2
    let keyPackedBytes := keyElements / (8 / config.keyBits)
    let valuePackedBytes := valueElements / (8 / config.valueBits)
    let (keyPackedOffset, cursor) <- takeDeviceRecordField 0 keyPackedBytes
    let (keyScaleOffset, cursor) <- takeDeviceRecordField cursor channelScaleBytes
    let (keyZeroOffset, cursor) <- takeDeviceRecordField cursor channelScaleBytes
    let (keyTokenScaleOffset, cursor) <- takeDeviceRecordField cursor tokenScaleBytes
    let (valuePackedOffset, cursor) <- takeDeviceRecordField cursor valuePackedBytes
    let (valueChannelScaleOffset, cursor) <-
      takeDeviceRecordField cursor channelScaleBytes
    let (valueTokenScaleOffset, cursor) <-
      takeDeviceRecordField cursor tokenScaleBytes
    let (valueZeroOffset, cursor) <- takeDeviceRecordField cursor tokenScaleBytes
    return {
      keyPackedOffset := keyPackedOffset
      keyScaleOffset := keyScaleOffset
      keyZeroOffset := keyZeroOffset
      keyTokenScaleOffset := keyTokenScaleOffset
      valuePackedOffset := valuePackedOffset
      valueChannelScaleOffset := valueChannelScaleOffset
      valueTokenScaleOffset := valueTokenScaleOffset
      valueZeroOffset := valueZeroOffset
      blockBytes := cursor }

theorem facts_of_new_eq_ok
    {config : KvarnConfig} {numKvHeads headDim : Nat} {layout : KvarnDeviceRecordLayout}
    (h : new config numKvHeads headDim = .ok layout) :
    config.validate headDim = .ok () ∧ 0 < numKvHeads ∧
      numKvHeads * headDim < usizeLimit ∧
      numKvHeads * headDim * config.group < usizeLimit := by
  rcases bind_eq_ok h with ⟨valid, hvalid, hrest⟩
  by_cases hheads : numKvHeads = 0
  · rw [if_pos hheads] at hrest
    cases hrest
  · rw [if_neg hheads] at hrest
    have hchannels := checkedMul_bind_eq_ok hrest
    have htokenRows := checkedMul_bind_eq_ok hchannels.right
    have hkey := checkedMul_bind_eq_ok htokenRows.right
    exact ⟨hvalid, Nat.pos_of_ne_zero hheads, hchannels.left, hkey.left⟩

end KvarnDeviceRecordLayout

end KvCache
end RunNBurn
