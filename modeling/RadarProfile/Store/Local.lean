import RadarProfile.Endpoint.Basic

set_option autoImplicit false

/-! # Stores without a network

One store keeps what it is given and refuses some keys; the other only logs. -/

namespace RadarProfile.Store

def offline : Error := .reading (.described "store offline".toList)

/-- The store that keeps every value, the latest last, except under the refused keys. -/
def keeping (refused : List Text) : Store (List Parameter) where
  write kept key value :=
    if refused.contains key then ⟨some offline, [], kept⟩
    else ⟨none, [], kept ++ [⟨key, value⟩]⟩

/-- The store that notes each value under a namespace and keeps nothing. -/
def logging (namespaceName : Text) : Store Unit where
  write _ key value := ⟨none, [.stored namespaceName key value], ()⟩

end RadarProfile.Store
