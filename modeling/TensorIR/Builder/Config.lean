import TensorIR.Binary32.Decimal

/-!
# TensorIR.Builder.Config

The settings of a construction session.

* `Config.validate`: the fills of the learnable parameters must be finite.
* `Config.ofEnvironment`: the defaults, with verification switched by a setting from outside.
-/

namespace TensorIR

/-- The fill of one kind of learnable parameter. -/
inductive Fill where
  | bias
  | beta
  | gamma
  deriving DecidableEq

def Fill.name : Fill → String
  | bias => "bias_fill"
  | beta => "beta_fill"
  | gamma => "gamma_fill"

structure Config where
  /-- Instructions are verified before they are appended. -/
  verifyOnBuild : Bool := true
  /-- The fill of the biases of convolutions and fully connected layers. -/
  biasFill : Binary32 := ⟨0x3dcccccd⟩
  /-- The fill of the shifts of batch normalisations. -/
  betaFill : Binary32 := ⟨0x00000000⟩
  /-- The fill of the scales of batch normalisations. -/
  gammaFill : Binary32 := ⟨0x3f800000⟩
  deriving DecidableEq

/-- A fill that is not finite. -/
structure InvalidConfig where
  fill : Fill
  value : Binary32
  deriving DecidableEq

def InvalidConfig.message (e : InvalidConfig) : String :=
  "invalid builder config: " ++ e.fill.name ++ " must be finite, got " ++ e.value.text

namespace Config

def value (config : Config) : Fill → Binary32
  | .bias => config.biasFill
  | .beta => config.betaFill
  | .gamma => config.gammaFill

/-- The settings, if all fills are finite; otherwise the first that is not. -/
def validate (config : Config) : Except InvalidConfig Config :=
  match [Fill.bias, .beta, .gamma].find? (fun fill => !(config.value fill).isFinite) with
  | some fill => .error ⟨fill, config.value fill⟩
  | none => .ok config

/-- Only `1` and `true`, in any mixture of ASCII cases, switch verification on; without a setting
the default holds. -/
def ofEnvironment : Option String → Config
  | none => {}
  | some setting =>
    { verifyOnBuild :=
        decide (setting = "1") || decide (setting.toList.map Char.toLower = "true".toList) }

end Config
end TensorIR
