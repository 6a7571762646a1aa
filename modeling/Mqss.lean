import Mqss.InMemoryFifo
import Mqss.InMemoryWakeups
import Mqss.InMemoryOutcomes
import Mqss.InMemoryProgress
import Mqss.RabbitMqAuto
import Mqss.RabbitMqManual
import Mqss.RabbitMqOrder
import Mqss.RabbitMqReceiver
import Mqss.RabbitMqShutdown
import Mqss.Deadline
import Mqss.Envelopes
import Mqss.Messenger
import Mqss.TypedQueue
import Mqss.DirectTasks
import Mqss.TaskIds
import Mqss.TaskResults
import Mqss.Protocols
import Mqss.Loops
import Mqss.StatusOrder
import Mqss.PendingTasks
import Mqss.StoreInvariant
import Mqss.ResultDelivery
import Mqss.Isolation
import Mqss.GateDefs
import Mqss.Histogram
import Mqss.Workflow
import Mqss.DirectProgress
import Mqss.Lifecycle
import Mqss.TypedRabbit
import Mqss.Wiring
