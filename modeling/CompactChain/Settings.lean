set_option autoImplicit false

namespace CompactChain

inductive Network where
  | mainnet
  | testnet
  | regtest
  deriving DecidableEq

def Network.tag : Network → String
  | .mainnet => "mainnet"
  | .testnet => "testnet"
  | .regtest => "regtest"

theorem Network.tag_injective {a b : Network} (h : a.tag = b.tag) : a = b := by
  cases a <;> cases b <;> first | rfl | exact absurd h (by decide)

/-- When a cache is opened, room is made for `capacity` blocks, which does not bound how many it holds, and
blocks at and above `syncFrom` are discarded. -/
structure Settings where
  network : Network
  startHeight : Nat
  syncFrom : Option Nat
  capacity : Option Nat
  path : String
  deriving DecidableEq

inductive SettingsFault where
  | emptyPath
  | startHeight (height : Nat)
  deriving DecidableEq

def SettingsFault.message : SettingsFault → String
  | .emptyPath => "database path must not be empty"
  | .startHeight height => "start height " ++ toString height ++ " does not fit in a block height"

namespace Settings

def standard : Settings where
  network := .testnet
  startHeight := 0
  syncFrom := none
  capacity := some 10000
  path := "./juno_cache"

def join (path name : String) : String :=
  if path = "" then name
  else if path.toList.getLast? = some '/' then path ++ name
  else path ++ "/" ++ name

def directory (settings : Settings) : String :=
  join settings.path settings.network.tag

def check (settings : Settings) : Except SettingsFault Unit :=
  if settings.path = "" then .error .emptyPath
  else if 0x100000000 ≤ settings.startHeight then .error (.startHeight settings.startHeight)
  else .ok ()

theorem startHeight_lt {settings : Settings} (checked : settings.check = .ok ()) :
    settings.startHeight < 0x100000000 := by
  unfold check at checked
  split at checked
  · contradiction
  split at checked
  · contradiction
  · omega

end Settings

end CompactChain
