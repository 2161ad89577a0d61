/-
How `AetherProcess` spawns the engine, and what the engine makes of it.

The process gets the environment of the app with the variables of the profile on top, and the
arguments of the profile, which end up in the environment as well.
-/
import Aether.Engine.Cli
import Aether.Profile.Args

namespace Aether.Profile

open Engine (Environment ArgError Parsed parseArgs)

/-- `putAll`. -/
def putAll (env : Environment) (values : List (String × Text)) : Environment :=
  values.foldl (fun e (key, value) => e.set key value) env

/-- What an installed app has around the engine. -/
structure Device where
  platform : Platform
  /-- The environment of the app. -/
  inherited : Environment
  /-- `workingDir.absolutePath`. -/
  workingDir : Text
  nativeLibDir : Text
  /-- `libpt-lyrebird.so` exists. -/
  lyrebird : Bool

namespace Device

variable (D : Device) (p : ConnectionProfile)

/-- The transports of `libpt-lyrebird.so`, in the form of `--tor-pt`. -/
def transports : Text :=
  [';'].intercalate (["obfs4", "meek_lite", "webtunnel"].map fun name =>
    name.toList ++ '=' :: (D.nativeLibDir ++ "/libpt-lyrebird.so".toList))

/-- The variables that `AetherProcess` puts itself. -/
def processEnv : List (String × Text) :=
  [("HOME", D.workingDir), ("TMPDIR", D.workingDir)] ++
  (if p.backend.usesTor then
    [("AETHER_TOR_DIR", D.workingDir ++ "/tor".toList), ("AETHER_TOR_PT_DIR", D.nativeLibDir)] ++
      if D.lyrebird then [("AETHER_TOR_PT", D.transports)] else []
  else [])

/-- `builder.environment()`. -/
def environment : Environment := putAll (putAll D.inherited (p.toEnv D.platform)) (D.processEnv p)

/-- The engine has read its command line. -/
def launch : Except ArgError (Parsed × Environment) :=
  parseArgs (D.environment p) (p.toArgs D.platform)

end Device

end Aether.Profile
