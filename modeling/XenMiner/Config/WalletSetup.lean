import XenMiner.Config.IniEdit

/-!
# `config/wallet_setup.py`: the name of the rig

`_ensure_worker_id` writes to `miner.ini` with the line editor, for options with names in ASCII.
-/

namespace XenMiner.WalletSetup

open PyText
open IniEdit (letters)

/-- `_set_ini_value`. -/
def setIniValue (file sect key value : Text) : Text := letters.setIniValue file sect key value

/-- `_read_ini_value` of a file that exists. -/
def readIniValue (file sect key : Text) : Text := letters.readIniValue file sect key

/-! ### The name of the rig -/

/-- `_NAME_PLACEHOLDERS`. -/
def namePlaceholders : List Text :=
  ["", "miner", "miner1", "miner2", "worker", "worker1", "default", "changeme", "replace_me",
    "yourname", "your_name", "your-name", "xenblockscan", "xnminer"].map String.toList

/-- `is_placeholder_miner_name`. -/
def isPlaceholderMinerName (name : Text) : Bool := lower (strip name) ∈ namePlaceholders

def hexDigits : Text := "0123456789abcdef".toList

/-- `uuid.uuid4().hex`. -/
structure Uuid where
  hex : Text
  length_eq : hex.length = 32
  isHex : ∀ c ∈ hex, c ∈ hexDigits

/-- `generate_random_miner_name`, with the digits it draws. -/
def generateRandomMinerName (uuid : Uuid) : Text := "xnminer-".toList ++ uuid.hex.take 8

def account : Text := "account".toList

def worker : Text := "worker".toList

def monitoring : Text := "monitoring".toList

def woodyminerCustomName : Text := "woodyminer_custom_name".toList

/-- `_ensure_worker_id`, with the name it returns. -/
def ensureWorkerId (uuid : Uuid) (file : Text) : Text × Text :=
  let workerName := readIniValue file account worker
  let custom := readIniValue file monitoring woodyminerCustomName
  let needWorker := isPlaceholderMinerName workerName
  let needCustom := isPlaceholderMinerName custom
  if needWorker = false ∧ needCustom = false then
    if strip custom = [] ∧ strip workerName ≠ [] then (file, strip workerName)
    else (file, strip (if custom = [] then workerName else custom))
  else
    let name :=
      if needWorker = false then strip workerName
      else if needCustom = false ∧ strip custom ≠ [] then strip custom
      else generateRandomMinerName uuid
    let file := if needWorker then setIniValue file account worker name else file
    let file :=
      if needCustom then setIniValue file monitoring woodyminerCustomName name else file
    (file, name)

end XenMiner.WalletSetup
