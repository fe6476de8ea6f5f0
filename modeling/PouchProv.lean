import PouchProv.Bytes
import PouchProv.Base64
import PouchProv.Cbor
import PouchProv.Runs
import PouchProv.Codec
import PouchProv.Status
import PouchProv.Settings
import PouchProv.ProvTypes
import PouchProv.CredStore
import PouchProv.CredRuns
import PouchProv.CredBounds
import PouchProv.DerLength
import PouchProv.WifiConfig
import PouchProv.WifiRuns
import PouchProv.WifiDriver
import PouchProv.Handlers
import PouchProv.Auth
import PouchProv.Device
import PouchProv.AuthGate
import PouchProv.Requests
import PouchProv.Replies
import PouchProv.Readers
import PouchProv.PouchFrame
import PouchProv.Saead
import PouchProv.Clients
import PouchProv.Handshake
import PouchProv.Stopped
import PouchProv.Exchange
import PouchProv.CredSessions
import PouchProv.Identity
import PouchProv.SealedUplinks
import PouchProv.Sar
import PouchProv.Provisioned
import PouchProv.Cddl
import PouchProv.ClientCbor
import PouchProv.ClientRequests
import PouchProv.CredPush
import PouchProv.PouchBuild
import PouchProv.SaeadFrames
import PouchProv.KeyUse
import PouchProv.SealedPacking
import PouchProv.ClientReader
import PouchProv.KotlinReader
import PouchProv.KotlinExact
import PouchProv.KotlinRange
import PouchProv.CborRoundTrip
import PouchProv.ClientResponses
import PouchProv.PythonResponses
import PouchProv.ClientMeaning
import PouchProv.ClientAgreement
import PouchProv.Extensions
import PouchProv.ForwardCompat
import PouchProv.WifiRequests
import PouchProv.StatusReport
import PouchProv.CredStatus
import PouchProv.ScanRuns
import PouchProv.ScanFlow
import PouchProv.SarSenders
import PouchProv.PacketQueue
import PouchProv.AsyncMutex
import PouchProv.GattOps
import PouchProv.UplinkWait
import PouchProv.Heap
import PouchProv.RpcQueue
import PouchProv.PopGate
import PouchProv.EndpointRuns
import PouchProv.SarLink
import PouchProv.MockSar
import PouchProv.MockDevice
import PouchProv.Tofu
import PouchProv.ResponseValues
import PouchProv.DeviceResponses
import PouchProv.Calls
import PouchProv.Pem
import PouchProv.Flow
import PouchProv.ClientFlows
import PouchProv.CredFlows
import PouchProv.WifiFlows
import PouchProv.Orders
import PouchProv.ProvisionFlow
import PouchProv.LaterOrders
import PouchProv.Advertising
import PouchProv.Discovery
import PouchProv.FakeWifi
