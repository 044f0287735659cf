import ProviderRoles.Json.Printer
import ProviderRoles.Proofs.Apply.Skipping
import ProviderRoles.Proofs.Config.Layering
import ProviderRoles.Proofs.Json.Reading
import ProviderRoles.Proofs.Kind.Lossless
import ProviderRoles.Proofs.Object.Stamp
import ProviderRoles.Proofs.Reconcile.Deadline
import ProviderRoles.Proofs.Reconcile.Independence
import ProviderRoles.Proofs.Reconcile.Namesakes
import ProviderRoles.Proofs.Reconcile.Noninterference
import ProviderRoles.Proofs.Reconcile.Reach
import ProviderRoles.Proofs.Reconcile.Repetition
import ProviderRoles.Proofs.Reconcile.Retry
import ProviderRoles.Proofs.Reconcile.Teardown
import ProviderRoles.Proofs.Render.Order
import ProviderRoles.Proofs.Render.Selection
import ProviderRoles.Proofs.Store.Client
import ProviderRoles.Proofs.Store.Isolation
import ProviderRoles.Proofs.Store.Order
import ProviderRoles.Proofs.Store.Representation
import ProviderRoles.Store.Disturbed
