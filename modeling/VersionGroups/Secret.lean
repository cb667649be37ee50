/-!
# Secrets

A secret is a value that is never shown. It has to be exposed on purpose.
-/

namespace VersionGroups

/-- A value that is not to be shown. -/
structure Secret (α : Type) where
  exposed : α

namespace Secret

/-- What is shown in place of a secret. -/
def mask : String := "***REDACTED***"

instance {α : Type} : ToString (Secret α) := ⟨fun _ => mask⟩

instance {α : Type} : Repr (Secret α) := ⟨fun _ _ => mask⟩

/-- No secret can be told from another by what is shown. -/
theorem toString_eq {α : Type} (a b : Secret α) : toString a = toString b := rfl

end Secret

end VersionGroups
