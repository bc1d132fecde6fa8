import Rendezvous.HostInterface.Layout
import Rendezvous.Deployment
import Rendezvous.Main
import Rendezvous.Ports
import Rendezvous.Proofs.LiveGraph
import Rendezvous.Proofs.Silence
import Rendezvous.Proofs.Presence
import Rendezvous.Proofs.Recovery
import Rendezvous.Proofs.ReadBack
import Rendezvous.Proofs.RecordText
import Rendezvous.Proofs.Histories
import Rendezvous.Proofs.Tenure
import Rendezvous.Proofs.Reporting
import Rendezvous.Proofs.Aftermath
import Rendezvous.Proofs.Recollection
import Rendezvous.Proofs.Retelling
import Rendezvous.Proofs.FolderMaking
import Rendezvous.Proofs.Evictions
import Rendezvous.Proofs.StoreRefinement
import Rendezvous.Proofs.Forgetting
import Rendezvous.Proofs.ConfigFile
import Rendezvous.Proofs.Deliveries
import Rendezvous.Proofs.EntityIds
import Rendezvous.Proofs.Dispatching
import Rendezvous.Proofs.Launching
import Rendezvous.Proofs.Failing
import Rendezvous.Proofs.HostSimulation
import Rendezvous.Proofs.Versions
import Rendezvous.Proofs.Hiding
import Rendezvous.Proofs.Undoing
import Rendezvous.Proofs.Saving
import Rendezvous.Proofs.Draining
import Rendezvous.Proofs.PartialConfig
import Rendezvous.Proofs.PrefixGrammar
import Rendezvous.Proofs.HostData
import Rendezvous.Proofs.NameCutting
import Rendezvous.Proofs.RegistryLineage
import Rendezvous.Proofs.Separation
import Rendezvous.Proofs.Demonstration
