import FramedMessaging.Discovery
import FramedMessaging.Extension
import FramedMessaging.Framing
set_option autoImplicit false

namespace FramedMessaging

open Discovery

inductive Contract where
  | framing
  | codec
  | extensionFactory
  deriving DecidableEq, Repr

abbrev Contract.Provided : Contract → Type
  | .framing => Framing
  | .codec => Codec
  | .extensionFactory => ExtensionFactory

instance : ContractFamily Contract where
  Provided := Contract.Provided
  typeName
    | .framing => "dyn busframe::protocol::FramingProtocol"
    | .codec => "dyn busframe::codec::ObjectCodec"
    | .extensionFactory => "dyn busframe::extension::ExtensionFactory"

abbrev Capabilities := Registry Contract

def Contract.serviceName : Contract → String
  | .framing => "busframe.FramingProtocol"
  | .codec => "busframe.ObjectCodec"
  | .extensionFactory => "busframe.ExtensionFactory"

namespace Builtin

def directId : String := "busframe.protocol.direct"
def lengthPrefixedId : String := "busframe.protocol.length-prefixed"
def endMarkerId : String := "busframe.protocol.end-marker"
def negotiatedId : String := "busframe.protocol.negotiated"
def codecId (c : Codec) : String := "busframe.codec." ++ c.name
def validationPolicyId : String := "busframe.extension.validation-policy"

/-- The ids that the texts of the library declare for a contract, in order of preference. -/
def ids : Contract → List String
  | .framing => [lengthPrefixedId, endMarkerId, directId, negotiatedId]
  | .codec => [codecId .raw, codecId .msgpack, codecId .json]
  | .extensionFactory => [validationPolicyId]

def resources (context : String) : ResourceContext :=
  [Contract.framing, .codec, .extensionFactory].foldl
    (fun r c => r.declare c.serviceName (ids c)) (.empty context)

end Builtin

/-- The declarations go to the context that is the default when this is called. A default chosen
later does not move them. -/
def Discovery.Builder.withBuiltins (b : Builder Contract) : Builder Contract :=
  b |>.contract .framing Contract.framing.serviceName
    |>.contract .codec Contract.codec.serviceName
    |>.contract .extensionFactory Contract.extensionFactory.serviceName
    |>.provider .framing Builtin.directId (.ok (.direct .standard))
    |>.provider .framing Builtin.lengthPrefixedId (.ok (.lengthPrefixed .standard))
    |>.provider .framing Builtin.endMarkerId (.ok (.endMarker .standard))
    |>.provider .framing Builtin.negotiatedId (.ok .negotiatedStandard)
    |>.provider .codec (Builtin.codecId .raw) (.ok .raw)
    |>.provider .codec (Builtin.codecId .msgpack) (.ok .msgpack)
    |>.provider .codec (Builtin.codecId .json) (.ok .json)
    |>.provider .extensionFactory Builtin.validationPolicyId (.ok .validationPolicy)
    |>.context (Builtin.resources b.defaultContext)

def builtinCapabilities : Except Failure Capabilities :=
  (Builder.empty.withBuiltins : Builder Contract).build

namespace Capabilities

def framing (r : Capabilities) (id : String) : Except Failure Framing :=
  (Registry.instantiate r Contract.framing id).result

def codec (r : Capabilities) (id : String) : Except Failure Codec :=
  (Registry.instantiate r Contract.codec id).result

def extensionFactory (r : Capabilities) (id : String) : Except Failure ExtensionFactory :=
  (Registry.instantiate r Contract.extensionFactory id).result

end Capabilities

end FramedMessaging
