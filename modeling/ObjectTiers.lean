import ObjectTiers.Cluster
import ObjectTiers.Proofs.Binding
import ObjectTiers.Proofs.Failure
import ObjectTiers.Proofs.Payload
import ObjectTiers.Proofs.Provenance
import ObjectTiers.Proofs.RoundTrip
import ObjectTiers.Proofs.Snapshot
import ObjectTiers.Proofs.Transparency
import ObjectTiers.Proofs.Tier.Places
import ObjectTiers.Proofs.Causes
import ObjectTiers.Proofs.Gate
import ObjectTiers.Proofs.WellFormed
import ObjectTiers.Proofs.Calls
import ObjectTiers.Proofs.Plan
import ObjectTiers.Proofs.Footprint
import ObjectTiers.Proofs.Interference
import ObjectTiers.Proofs.Backends
import ObjectTiers.Proofs.Base64
import ObjectTiers.Proofs.Spelling
import ObjectTiers.Proofs.Refusals
import ObjectTiers.Proofs.KeyOrder
import ObjectTiers.Proofs.KeyRing
import ObjectTiers.Proofs.Images
import ObjectTiers.Proofs.Effort
import ObjectTiers.Proofs.Reference
import ObjectTiers.Proofs.Crossing
import ObjectTiers.Proofs.Handles
import ObjectTiers.Proofs.Expiry
import ObjectTiers.Proofs.LastWrite
import ObjectTiers.Proofs.Number
import ObjectTiers.Proofs.Settings
