import Rehost.Script.Rule

/-! Proxy and debug wiring. It reads the script's own configuration, so it calls the look-up function under the name
that the script gives it, and it stands right behind the init guard, where the configuration is first known. -/
namespace Rehost.Capability

def stage : Text := "capabilities"

def statements (lookup : Text) : Text :=
  let proxy := lookup ++ "(\"proxy\",null)"
  slots.proxy ++ "=" ++ proxy ++ "?new HttpsProxyAgent(url.parse(" ++ proxy ++ ")):null;" ++
    slots.debug ++ "=" ++ lookup ++ "(\"debug\",null)==true;"

/-- The guard is asked for first, so its absence is named even where the look-up is missing too. -/
def inject (source : Text) : Except Absence Text := do
  let guard ← Landmark.initGuard.require source stage .collaborator
  let lookup ← Landmark.lookup.require source stage .collaborator
  return guard.splice (guard.text ++ statements (lookup.named "name"))

end Rehost.Capability
