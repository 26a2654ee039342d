import DecentRegistry.Authority.History
import DecentRegistry.Authority.Commitment
import DecentRegistry.Provider.Readback
import DecentRegistry.Provider.Withdrawal
import DecentRegistry.Provider.WithdrawalAuthority
import DecentRegistry.Provider.StandaloneSet
import DecentRegistry.Store.Acceptance
import DecentRegistry.Store.Isolation
import DecentRegistry.Dht.NoRollback
import DecentRegistry.Dht.IdentityBinding
import DecentRegistry.Dht.ProviderBinding
import DecentRegistry.Dht.HeadAgreement
import DecentRegistry.Dht.Addressing
import DecentRegistry.Dht.PredecessorWalk
import DecentRegistry.Dht.ConditionalPut
import DecentRegistry.Provider.WithdrawalService
import DecentRegistry.Provider.HashSpelling
import DecentRegistry.Bundle.Finalization
import DecentRegistry.Bundle.Merging
import DecentRegistry.Bundle.Replacement
import DecentRegistry.Dht.RepeatedRead
import DecentRegistry.Dht.PublishedHead
import DecentRegistry.Dht.IdentityDecision
import DecentRegistry.Dht.InboundRuns
import DecentRegistry.Dht.InboundFrames
import DecentRegistry.Dht.ServingProof
import DecentRegistry.Dht.Referrals
import DecentRegistry.Dht.PendingAdds
import DecentRegistry.Wire.UniqueEncoding
import DecentRegistry.Wire.PayloadEncoding
import DecentRegistry.Wire.ProviderUrl
import DecentRegistry.Store.KeyFile
import DecentRegistry.Authority.OverwriteRuns
import DecentRegistry.Dht.Replication
import DecentRegistry.Dht.Exclusion
import DecentRegistry.Foundations.Pulling
import DecentRegistry.Foundations.OwnedRegister
import DecentRegistry.Model.Service
import DecentRegistry.Wire.BuiltEnvelopes
import DecentRegistry.Dht.FirstOwner
