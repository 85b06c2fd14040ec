import RpcConformance.Duration
import RpcConformance.Metadata.Basic
/-!
What a caller may set for one call.
-/
namespace RpcConformance

/-- How long a call may take, and the metadata of its request. -/
structure CallOptions where
  timeout : Option Duration := none
  metadata : Metadata := .empty
deriving DecidableEq, Repr

namespace CallOptions

def withTimeout (options : CallOptions) (timeout : Duration) : CallOptions :=
  { options with timeout := some timeout }

def withEntry (options : CallOptions) (key : String) (value : Bytes) : CallOptions :=
  { options with metadata := options.metadata.insert key value }

def withMetadata (options : CallOptions) (metadata : Metadata) : CallOptions :=
  { options with metadata }

end CallOptions
end RpcConformance
