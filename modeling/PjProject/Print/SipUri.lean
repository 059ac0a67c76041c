import PjProject.Print.Escape
import PjProject.Parser.Uri
import PjProject.Sip.StreamFraming
import PjProject.Sdp.Print

set_option autoImplicit false

/-! # The settings of a printed URI

What `pjsip_url_print` of `pjsip/src/pjsip/sip_uri.c` depends on besides the URI: where the URI stands,
the settings of the endpoint, and the characters a user may have.
-/

namespace SipPrint

open Scan
open SipParser
open Sdp (Str str)

/-- `pjsip_uri_context_e`. -/
inductive UriContext where
  | inReqUri
  | inFromToHdr
  | inContactHdr
  | inRoutingHdr
  | inOther
  deriving DecidableEq

/-- The settings of `pjsip_cfg()->endpt` that printing depends on. -/
structure UriCfg where
  allowTxHashInUri : Bool
  allowPortInFromtoHdr : Bool
  deriving DecidableEq

/-- `pjsip_USER_SPEC`. -/
def userSpec : PjCis := alnumAnd (markChars ++ ['%'] ++ ['&', '=', '+', '$', ',', ';', '?', '/'])

/-- The set for the user. -/
def UriCfg.userSpec (cfg : UriCfg) : PjCis :=
  if cfg.allowTxHashInUri then userSpecLenient else SipPrint.userSpec

/-- `";user="`, `";method="` and so on. -/
def paramName (name : List Char) : Str := 59 :: (str name ++ [61])

end SipPrint
