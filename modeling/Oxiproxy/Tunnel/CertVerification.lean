import Oxiproxy.Client.ConnectionManager

/-!
# The verification of a node's certificate

A client that has been given fingerprints for a node takes the node's QUIC
certificate if and only if its fingerprint is among them; without fingerprints it
takes any.
-/

namespace Oxiproxy.Tunnel

/-- Reading PEM texts and hashing. -/
structure CertTools (D K : Type) where
  /-- The first certificate of a PEM text, if there is one and it is well formed. -/
  firstCert : String → Option D
  privateKey : String → Option K
  /-- SHA-256 in hexadecimal digits. -/
  sha256Hex : D → String

variable {D K : Type}

namespace CertTools

def fingerprint (tools : CertTools D K) (cert : D) : String := "sha256:" ++ tools.sha256Hex cert

/-- `calculate_cert_fingerprint_from_pem`. -/
def fingerprintFromPem (tools : CertTools D K) (certPem : String) : Option String :=
  (tools.firstCert certPem).map tools.fingerprint

end CertTools

/-- The modes that a connector is made with; `SystemCA` is never asked for. -/
inductive CertVerificationMode
  | skipVerification
  | fingerprint (allowed : List String)

/-- The mode of a connection task. -/
def CertVerificationMode.ofFingerprints : List String → CertVerificationMode
  | [] => .skipVerification
  | fp :: fps => .fingerprint (fp :: fps)

/-- `verify_server_cert`. -/
def verifyServerCert (tools : CertTools D K) : CertVerificationMode → D → Bool
  | .skipVerification, _ => true
  | .fingerprint allowed, cert => tools.fingerprint cert ∈ allowed

/-- The task takes the certificate of a QUIC server. -/
def Accepts (tools : CertTools D K) (t : Client.ConnectionTask) (cert : D) : Prop :=
  verifyServerCert tools (.ofFingerprints t.certFingerprints) cert = true

/-- With a fingerprint to check, it is the only one that is taken. -/
theorem accepts_iff_of_fingerprint {tools : CertTools D K} {t : Client.ConnectionTask}
    {fp : String} (ht : t.certFingerprints = [fp]) (cert : D) :
    Accepts tools t cert ↔ tools.fingerprint cert = fp := by
  rw [Accepts, ht]
  simp [CertVerificationMode.ofFingerprints, verifyServerCert]

end Oxiproxy.Tunnel
