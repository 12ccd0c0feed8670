import XenMiner.Efficiency.VramPolicy
import XenMiner.Lib.PyStr

/-!
# `config/settings.py`: the settings the modelled code reads

The defaults are those of `load_settings`.
-/

namespace XenMiner

/-- The fields of `Settings` that sizing, derating, queueing and submitting depend on. -/
structure Settings where
  strategy : String := "random"
  address : String := ""
  memoryCost : ℤ := 1100
  timeCost : ℤ := 1
  parallelism : ℤ := 1
  hashLen : ℤ := 64
  submitCpuFraction : ℚ := 3 / 10
  sampleIntervalS : ℤ := 5
  targetVramPct : ℚ := 6909 / 100
  desktopHeadroomPct : ℚ := 2512 / 100
  emergencyVramPct : ℚ := 9278 / 100
  minHeadroomPct : ℚ := 368 / 100
  runtimeOverheadPct : ℚ := 628 / 100
  minHeadroomFloorMib : ℤ := 512
  runtimeOverheadFloorMib : ℤ := 256
  targetVramMib : ℤ := 0
  headroomMib : ℤ := 0
  emergencyVramMib : ℤ := 0
  minHeadroomMib : ℤ := 0
  vramAccountDesktop : Bool := true
  vramSafetyMarginMib : ℤ := 512
  vramSoftDerateEnabled : Bool := true
  vramSoftMinScale : ℚ := 11 / 20
  vramSoftLaneEnabled : Bool := true
  maxGpuTempC : ℤ := 84
  warnGpuTempC : ℤ := 78
  clockCurveEnabled : Bool := true
  clockLowDifficulty : ℤ := 100
  clockBatchFillLow : ℚ := 3 / 5
  clockBatchFillRef : ℚ := 19 / 20
  clockBatchFillHigh : ℚ := 17 / 20
  gpuThermalBatchEnabled : Bool := true
  gpuThermalBatchMinScale : ℚ := 7 / 10
  gpuThermalLaneEnabled : Bool := true
  gpuThermalLaneMin : ℤ := 1
  gpuDifficultyLaneBias : Bool := true
  gpuDifficultyLaneFullPackRatio : ℚ := 7 / 20
  gpuHighDiffTempFullRatio : ℚ := 19 / 10
  cudaBatchSize : ℤ := 0
  cudaMaxBatchSize : ℤ := 0
  cudaRuntimeOverheadMib : ℤ := 0
  vramReferenceDifficulty : ℤ := 1100
  cudaLaneReserve : ℤ := 1
  cudaLanePackMode : String := "fill"
  cudaMinBatchPerLane : ℤ := 2048
  cudaAllowDllLaneCopies : Bool := false

/-- The salt is the address without its `0x`. -/
def Settings.saltHex (s : Settings) : String := PyStr.drop 2 s.address

/-- The arguments `resolve_vram_caps` gets from the settings, from the supervisor and from the
backend alike. -/
def Settings.capsArgs (s : Settings) (totalMib : ℤ) : VramPolicy.CapsArgs where
  totalMib := totalMib
  targetPct := s.targetVramPct
  desktopHeadroomPct := s.desktopHeadroomPct
  emergencyVramPct := s.emergencyVramPct
  minHeadroomPct := s.minHeadroomPct
  runtimeOverheadPct := s.runtimeOverheadPct
  minHeadroomFloorMib := s.minHeadroomFloorMib
  overheadFloorMib := s.runtimeOverheadFloorMib
  targetMibOverride := s.targetVramMib
  headroomMibOverride := s.headroomMib
  emergencyMibOverride := s.emergencyVramMib
  minHeadroomMibOverride := s.minHeadroomMib
  runtimeOverheadMibOverride := s.cudaRuntimeOverheadMib

end XenMiner
