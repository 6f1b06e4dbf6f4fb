import Bria.MessageJournal.Cutoff
import Bria.MessageJournal.Atomicity
import Bria.AcceptedInput.Custody
import Bria.DurableFlow.Output
import Bria.Coordinator.Safety
import Bria.CoordinatorTransfer.Completion
import Bria.NodeLink.AtMostOnce
import Bria.NodeLink.Fencing
import Bria.Domain.History
import Bria.CardHistory.PendingFinals
import Bria.Storage.EmptyClose
import Bria.MutationScheduler.Cooldown
import Bria.UpdateFlow.Progress
import Bria.InteractionFlow.AtMostOnce
import Bria.InteractionStore.Reopen
import Bria.Storage.CheckpointStore
import Bria.Coordinator.Recovery
import Bria.CoordinatorBundle.Quiescent
import Bria.CoordinatorState.Store
import Bria.NotificationState.Fenced
import Bria.ArtifactDelivery.Attempts
import Bria.TurnAdmission.Admission
import Bria.Settings.FileStore
import Bria.SessionDiscovery.Catalog
import Bria.CardPageSelection.Navigation
