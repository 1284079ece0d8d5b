import Geocoding.Main
import Geocoding.Proofs.BlankAddresses
import Geocoding.Proofs.Bookkeeping
import Geocoding.Proofs.BrokenCache
import Geocoding.Proofs.CacheStores
import Geocoding.Proofs.CallerIds
import Geocoding.Proofs.Cancellation
import Geocoding.Proofs.CanonicalAddress
import Geocoding.Proofs.CascadeInTurns
import Geocoding.Proofs.CommandLine
import Geocoding.Proofs.Correlation
import Geocoding.Proofs.FiniteCoordinates
import Geocoding.Proofs.FiredToken
import Geocoding.Proofs.Inquiries.Bulk
import Geocoding.Proofs.Interleaving.Clock
import Geocoding.Proofs.Overrides
import Geocoding.Proofs.QueryTexts
import Geocoding.Proofs.RepeatedCalls
import Geocoding.Proofs.ReverseLookup
import Geocoding.Proofs.SingleAddress
import Geocoding.Proofs.SoundConfigurations
import Geocoding.Proofs.Spellings
import Geocoding.Proofs.StoreHistory
