import Rehost.Script.Rule

/-! The envelope: what a script finds around it in the place of the page. The header declares the libraries and the
slots that the script sets, the footer hands the loader out. -/
namespace Rehost.Envelope

def loader : Text := "HBLoaded"

def loadedHook : Text := "onHBLoaded"

/-- The media primitives that a caller may put in the place of the polyfill's. -/
def media : List Text := ["RTCPeerConnection", "RTCIceCandidate", "RTCSessionDescription"]

def banner : Text :=
  "/* Builded & Automated with Haxball.JS Nodeify Script - Reads from local headless-min.js file */"

def openingLines : List Text :=
  ["const WebSocket = require(\"ws\");",
    "const XMLHttpRequest = require(\"xhr2\");",
    "const JSON5 = require(\"json5\");",
    "const url = require(\"url\");",
    "const pako = require(\"pako\");",
    "const \x7b HttpsProxyAgent \x7d = require(\"https-proxy-agent\");",
    "const \x7b Crypto \x7d = require(\"@peculiar/webcrypto\");",
    "const \x7b performance \x7d = require(\"perf_hooks\");",
    "const crypto = new Crypto();",
    "",
    "let \x7b " ++ Text.join ", " media ++ " \x7d = require(\"@mertushka/node-datachannel/polyfill\");",
    "",
    "var " ++ slots.resolve ++ ";",
    "var " ++ slots.proxy ++ ";",
    "var " ++ slots.debug ++ " = false;",
    "",
    "const " ++ loader ++ " = (config) => \x7b",
    "  if(config?.webrtc) \x7b"]

def mediaLine (name : Text) : Text := "    " ++ name ++ " = config.webrtc." ++ name ++ ";"

def closingLines : List Text :=
  ["  \x7d",
    "  return new Promise(function (resolve, reject) \x7b",
    "  " ++ slots.resolve ++ " = resolve;",
    "  \x7d);",
    "\x7d",
    "",
    "const " ++ loadedHook ++ " = function (cb) \x7b",
    "  return cb;",
    "\x7d;",
    "",
    banner,
    "",
    ""]

def headerLines : List Text := openingLines ++ media.map mediaLine ++ closingLines

def header : Text := Text.join "\n" headerLines

def footer : Text := "\nmodule.exports = " ++ loader ++ ";"

def wrap (source : Text) : Text := header ++ source ++ footer

@[simp] theorem length_wrap (source : Text) :
    (wrap source).length = header.length + source.length + footer.length := by
  simp [wrap]; omega

end Rehost.Envelope
