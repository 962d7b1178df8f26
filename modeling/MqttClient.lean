import MqttClient.Foundation.Framing
import MqttClient.Foundation.VariableByte
import MqttClient.KeyedList
import MqttClient.MQTTPacket.Fragmentation
import MqttClient.MQTTPacket.Isolation
import MqttClient.Socket.WriteStream
import MqttClient.MQTTPacket.PublishRoundTrip
import MqttClient.Library
import MqttClient.MQTTProtocol.MessageIds
import MqttClient.MQTTProtocol.Receiving
import MqttClient.MQTTClient.Interface
import MqttClient.MQTTClient.Cycle
import MqttClient.MQTTClient.Connect
import MqttClient.MQTTClient.System
import MqttClient.Socket.PendingBookkeeping
import MqttClient.MQTTPacket.Dispatch
import MqttClient.MQTTProtocol.References
import MqttClient.Foundation.ReferenceCount
import MqttClient.MQTTClient.Steps
import MqttClient.MQTTClient.Connections
import MqttClient.MQTTClient.Window
import MqttClient.MQTTClient.DeliveryTokens
import MqttClient.MQTTClient.ReadySockets
import MqttClient.MQTTClient.Acknowledgements
import MqttClient.MQTTClient.ConnectPackets
import MqttClient.MQTTClient.LoopLifetime
import MqttClient.MQTTClient.Delivery
import MqttClient.MQTTClient.References
import MqttClient.MQTTClient.PublishOutcomes
import MqttClient.MQTTClient.ConnectAnswers
import MqttClient.MQTTClient.BackgroundLoop
import MqttClient.MQTTClient.Subscribing
import MqttClient.MQTTClient.ConnectStates
import MqttClient.MQTTPacket.ExactParsers
import MqttClient.WebSocket.Unmasking
import MqttClient.MQTTPacket.RemainingLength
import MqttClient.MQTTPacket.RequestBodies
import MqttClient.MQTTProperties.Grammar
import MqttClient.Socket.QueuedData
import MqttClient.MQTTClient.InboundStore
import MqttClient.MQTTProtocol.PayloadCopies
import MqttClient.MQTTClient.IdAllocation
import MqttClient.Base64
import MqttClient.Socket.RegistryInvariant
import MqttClient.WebSocket.Restoration
import MqttClient.MQTTProtocol.AddressPort
import MqttClient.LinkedList.Abstraction
import MqttClient.Socket.PassCoverage
import MqttClient.Socket.DescriptorBound
import MqttClient.MQTTClient.SemaphoreWait
import MqttClient.Utf8
import MqttClient.Sha1
import MqttClient.WebSocket.Authentication
import MqttClient.WebSocket.Reassembly
import MqttClient.MQTTPacket.Transport
import MqttClient.WebSocket.PacketStream
import MqttClient.MQTTPacket.FramedTransport
import MqttClient.MQTTClient.DeliveredStream
import MqttClient.MQTTClient.WrittenStream
